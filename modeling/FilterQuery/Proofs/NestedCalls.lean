import FilterQuery.Proofs.ErrorPlaces
import FilterQuery.Proofs.RenderedQueries
import FilterQuery.Proofs.TestedQueries
import FilterQuery.Proofs.Traversals

/-!
# Calls to the handler of nested queries

A nested query is resolved when it is first pulled from, and each traversal
resolves it anew.  So a traversal to the end calls the handler once for each
nested query in the graph, and one that stops earlier, as a test does, once at
most.  A nested query that is the value of a filter is resolved each time the
filter is asked about an element, under the name of the filter; but not if there
is nothing to compare with, and not if the filter is not registered, as it then
never matches.
-/

namespace FilterQuery

open FilterQuery.Graph
open Run (ofCalls ofElements)

variable {α : Type} {engine : Engine α}

/-- The query and the filter that a call hands to the handler of nested
queries. -/
def Call.nested? : Call α → Option (String × String)
  | .nested query filter => some (query, filter)
  | _ => none

/-- The calls to the handler of nested queries. -/
def nestedCalls (calls : List (Call α)) : List (String × String) := calls.filterMap Call.nested?

/-- Calls made one after the other ask one after the other. -/
@[simp] theorem nestedCalls_append (calls calls' : List (Call α)) :
    nestedCalls (calls ++ calls') = nestedCalls calls ++ nestedCalls calls' :=
  List.filterMap_append

namespace Run

/-- Leaving out repeated elements leaves out no call. -/
theorem keepFirst_calls [BEq α] (p : α → Bool) (seen : List α) (r : Run α) :
    (keepFirst p seen r).calls = r.calls := by
  induction r generalizing seen with
  | nil => rfl
  | cons event r ih =>
      match event with
      | .call c => exact congrArg (c :: ·) (ih seen)
      | .slot none => exact ih seen
      | .slot (some e) =>
          rw [keepFirst]
          split
          · exact ih _
          · exact ih _

/-- Settling the slots of a run leaves its calls. -/
theorem settle_calls (rule : Rule α) (side : Side) (m : Memory α) (r : Run α) :
    (settle rule side m r).1.calls = r.calls := by
  induction r generalizing m with
  | nil => rfl
  | cons event r ih =>
      match event with
      | .call c => exact congrArg (c :: ·) (ih m)
      | .slot none => exact ih m
      | .slot (some e) => exact ih _

/-- Merging keeps the calls in the order of the pieces. -/
theorem settleAll_calls (rule : Rule α) (m : Memory α) (pieces : List (Side × Run α)) :
    (settleAll rule m pieces).calls = pieces.flatMap (·.2.calls) := by
  induction pieces generalizing m with
  | nil => rfl
  | cons head pieces ih =>
      obtain ⟨side, piece⟩ := head
      rw [settleAll_cons, calls_append, settle_calls, ih, List.flatMap_cons]

/-- Pulling one element after the other makes all calls. -/
theorem pulls_calls (r : Run α) : (pulls r).flatMap calls = r.calls := by
  induction r with
  | nil => rfl
  | cons event r ih =>
      match event with
      | .slot e => exact ih
      | .call c =>
          rw [pulls]
          cases h : pulls r with
          | nil =>
              have hslots := pulls_slots r
              simp [h] at hslots
          | cons piece pieces =>
              rw [h] at ih
              exact congrArg (c :: ·) ih

/-- Pulling in turn makes the calls of both sides, in another order. -/
theorem alternate_calls (ps qs : List (Run α)) :
    ((alternate ps qs).flatMap (·.2.calls)).Perm (ps.flatMap calls ++ qs.flatMap calls) := by
  induction ps generalizing qs with
  | nil =>
      cases qs with
      | nil => exact .refl _
      | cons q qs => simp [alternate, List.flatMap_map]
  | cons p ps ih =>
      cases qs with
      | nil => simp [alternate, List.flatMap_map]
      | cons q qs =>
          rw [alternate, List.flatMap_cons, List.flatMap_cons, List.flatMap_cons,
            List.flatMap_cons, List.append_assoc]
          refine .append_left _ (((ih qs).append_left _).trans ?_)
          exact List.perm_append_comm_assoc ..

/-- Merging two runs makes the calls of both, in some order. -/
theorem merge_calls (rule : Rule α) (left right : Run α) :
    (merge rule left right).calls.Perm (left.calls ++ right.calls) := by
  rw [merge, settleAll_calls, ← pulls_calls left, ← pulls_calls right]
  exact alternate_calls _ _

/-- An intersection makes the calls of both sides. -/
theorem intersection_calls [BEq α] (left right : Run α) :
    (left.intersection right).calls.Perm (left.calls ++ right.calls) := by
  rw [intersection, calls_append, calls_ofCalls, keepFirst_calls]
  exact List.perm_append_comm

/-- A union makes the calls of the left side and then those of the right one. -/
theorem union_calls [BEq α] (left right : Run α) :
    (left.union right).calls = left.calls ++ right.calls := by
  rw [union, keepFirst_calls, calls_append]

end Run

/-- The nested queries that sets are made of, each with its filter, from left to
right. -/
def Plan.nestedQueries : Plan α → List (String × String)
  | .nested query filter _ => [(query, filter)]
  | .aggregate _ source => source.nestedQueries
  | .intersection a b => a.nestedQueries ++ b.nestedQueries
  | .union a b => a.nestedQueries ++ b.nestedQueries
  | _ => []

section Plans

variable [BEq α]

/-- A nested query is handed over once, however many elements there are. -/
theorem nestedCalls_nested (query filter : String) (handler : String → String → List α)
    (mode : Mode) (payload : List α) :
    nestedCalls ((Plan.nested query filter handler).run mode payload).calls =
      [(query, filter)] := by
  rw [Plan.run, Run.calls_call, Run.calls_ofElements]
  rfl

/-- An aggregator asks what its source asks. -/
theorem nestedCalls_aggregate (a : Aggregator α) (source : Plan α) (mode : Mode)
    (payload : List α) :
    nestedCalls ((Plan.aggregate a source).run mode payload).calls =
      nestedCalls (source.run mode []).calls := by
  rw [Plan.run, Run.calls_append, Run.calls_ofCalls, Run.calls_call, Run.calls_ofElements,
    nestedCalls_append]
  exact List.append_nil _

/-- **The run of a set expression calls the handler once for each nested
query.** -/
theorem Plan.IsSetExpression.nestedCalls_perm {p : Plan α} (h : p.IsSetExpression) (mode : Mode)
    (payload : List α) : (nestedCalls (p.run mode payload).calls).Perm p.nestedQueries := by
  induction h generalizing payload with
  | nested query filter handler =>
      rw [nestedCalls_nested]
      exact .refl _
  | aggregate a query filter handler =>
      rw [nestedCalls_aggregate, nestedCalls_nested]
      exact .refl _
  | @intersection a b _ _ iha ihb =>
      have hcalls : ((Plan.intersection a b).run mode payload).calls.Perm
          ((a.run mode []).calls ++ (b.run mode []).calls) := by
        cases mode with
        | strict => rw [Plan.run]; exact Run.intersection_calls _ _
        | fast => rw [Plan.run]; exact Run.merge_calls _ _ _
      refine (hcalls.filterMap _).trans ?_
      rw [List.filterMap_append]
      exact (iha []).append (ihb [])
  | @union a b _ _ iha ihb =>
      have hcalls : ((Plan.union a b).run mode payload).calls.Perm
          ((a.run mode []).calls ++ (b.run mode []).calls) := by
        cases mode with
        | strict => rw [Plan.run, Run.union_calls]
        | fast => rw [Plan.run]; exact Run.merge_calls _ _ _
      refine (hcalls.filterMap _).trans ?_
      rw [List.filterMap_append]
      exact (iha []).append (ihb [])

end Plans

/-- The calls of a part of a run are among those of the run. -/
theorem nestedCalls_subperm {calls calls' all : List (Call α)} (h : all = calls ++ calls') :
    (nestedCalls calls).Subperm (nestedCalls all) := by
  rw [h, nestedCalls_append]
  exact (List.sublist_append_left _ _).subperm

/-- The test of a set expression pulls from a traversal as far as it needs
to. -/
theorem Plan.IsSetExpression.exists_pulled_test [BEq α] {p : Plan α} (h : p.IsSetExpression)
    (e : α) : ∃ n slots t, Pulled n (p.traversal .strict []) (p.yields e).notes slots t := by
  have hyields : p.yields e =
      (p.traversal .strict []).rest.search fun found => pure (found == e) := by
    rw [p.rest_traversal]
    cases h <;> rfl
  rw [hyields]
  exact exists_pulled_search _ _

/-- The nested query that a node stands for. -/
def NodeKind.nestedQuery? : NodeKind → Option NestedExpression
  | .nestedQuery q => some q
  | _ => none

/-- The nested queries of a graph. -/
def Graph.nestedQueries (g : Graph) : List NestedExpression :=
  g.places.filterMap (·.kind.nestedQuery?)

/-- The nested queries of a tree. -/
def Graph.nestedQueriesOf (t : Tree Content) : List NestedExpression :=
  t.preorder.filterMap (·.kind.nestedQuery?)

namespace Graph

variable {owner : Option String} {t : Tree Content}

/-- The nested queries of a tree are that of the root, if it is one, and those
below it. -/
theorem nestedQueriesOf_node (c : Content) (ts : List (Tree Content)) :
    nestedQueriesOf (.node c ts) = c.kind.nestedQuery?.toList ++ ts.flatMap nestedQueriesOf := by
  have hbelow : (ts.flatMap Tree.preorder).filterMap (·.kind.nestedQuery?) =
      ts.flatMap nestedQueriesOf := by
    rw [List.filterMap_flatMap]
    rfl
  rw [nestedQueriesOf, Tree.preorder_node, List.filterMap_cons, hbelow]
  cases c.kind.nestedQuery? <;> rfl

/-- A nested query that compiles without an error is handed to the handler as it
stands. -/
theorem compileNested_eq_of_clean {q : NestedExpression} {token : Token}
    (h : (engine.compileNested q token).notes = []) :
    ∃ handler, (engine.compileNested q token).value =
      .nested q.query (q.filter.getD "") handler := by
  unfold Engine.compileNested at h ⊢
  cases hhandler : engine.nestedHandler with
  | none =>
      rw [hhandler] at h
      cases h
  | some handler => exact ⟨handler, rfl⟩

/-- Below a node that is no filter the owner is the same. -/
theorem IsOwned.operands {c : Content} {ts : List (Tree Content)} (h : IsOwned owner (.node c ts))
    (hbare : c.kind.isBare = true) : ∀ t ∈ ts, IsOwned owner t := by
  obtain ⟨-, hbelow⟩ := h
  rwa [NodeKind.owner_of_isBare hbare] at hbelow

/-- Combinators of two belong to no filter. -/
theorem isBare_of_binary {kind : NodeKind} (h : kind.isBinaryCombinator = true) :
    kind.isBare = true := by
  cases kind <;> cases h <;> rfl

/-- The plan of a nested query hands the handler its query and its filter. -/
theorem planOf_query {q : NestedExpression} {token : Token}
    (howned : IsOwned owner (.leaf ⟨.nestedQuery q, token⟩))
    (hclean : (engine.planOf (.leaf ⟨.nestedQuery q, token⟩)).notes = []) :
    ∃ handler, (engine.planOf (.leaf ⟨.nestedQuery q, token⟩)).value =
      .nested q.query (owner.getD "") handler := by
  obtain ⟨hfilter, -⟩ := howned
  obtain rfl := hfilter q rfl
  exact compileNested_eq_of_clean hclean

/-- An aggregator that compiles without an error is a known one over a source
without errors. -/
theorem planOf_aggregator_of_clean {name : String} {token : Token} {source : Tree Content}
    (hclean : (engine.planOf (.node ⟨.aggregator name, token⟩ [source])).notes = []) :
    ∃ a, (engine.planOf source).notes = [] ∧
      (engine.planOf (.node ⟨.aggregator name, token⟩ [source])).value =
        .aggregate a (engine.planOf source).value := by
  rw [Engine.planOf_aggregator] at hclean ⊢
  cases ha : engine.aggregators.find? name with
  | none =>
      rw [ha] at hclean
      cases hclean
  | some a =>
      rw [ha] at hclean
      exact ⟨a, (List.append_eq_nil_iff.mp hclean).1, rfl⟩

/-- **The nested queries of a set are those of its plan**, each under the name
of its filter. -/
theorem IsSetTree.nestedQueries_planOf (h : IsSetTree t) (howned : IsOwned owner t)
    (hclean : (engine.planOf t).notes = []) :
    (engine.planOf t).value.nestedQueries =
      (nestedQueriesOf t).map fun q => (q.query, owner.getD "") := by
  induction h with
  | block h =>
      cases h with
      | query q token =>
          obtain ⟨handler, hvalue⟩ := planOf_query howned hclean
          rw [hvalue]
          rfl
      | aggregator name q token token' =>
          obtain ⟨a, hsource, hvalue⟩ := planOf_aggregator_of_clean hclean
          obtain ⟨-, hbelow⟩ := howned
          obtain ⟨handler, hquery⟩ := planOf_query (hbelow _ List.mem_cons_self) hsource
          rw [hvalue, hquery]
          rfl
  | intersection _ _ ihl ihr =>
      have hbelow := howned.operands rfl
      rw [Engine.planOf_intersection] at hclean ⊢
      simp only [Noted.notes_bind, Noted.notes_pure, List.append_nil,
        List.append_eq_nil_iff] at hclean
      rw [nestedQueriesOf_node, Noted.value_bind, Noted.value_bind, Noted.value_pure,
        Plan.nestedQueries, ihl (hbelow _ (by simp)) hclean.1, ihr (hbelow _ (by simp)) hclean.2]
      simp [NodeKind.nestedQuery?]
  | union _ _ ihl ihr =>
      have hbelow := howned.operands rfl
      rw [Engine.planOf_union] at hclean ⊢
      simp only [Noted.notes_bind, Noted.notes_pure, List.append_nil,
        List.append_eq_nil_iff] at hclean
      rw [nestedQueriesOf_node, Noted.value_bind, Noted.value_bind, Noted.value_pure,
        Plan.nestedQueries, ihl (hbelow _ (by simp)) hclean.1, ihr (hbelow _ (by simp)) hclean.2]
      simp [NodeKind.nestedQuery?]

/-- **Rewriting leaves nested queries with their filters.** -/
theorem isOwned_allowsRewriting :
    AllowsRewriting fun t u => ∀ owner, IsOwned owner t → IsOwned owner u where
  refl _ _ h := h
  trans h h' owner ht := h' owner (h owner ht)
  node := by
    intro c ts us hall owner h
    obtain ⟨howned, hbelow⟩ := h
    refine .node howned ?_
    clear howned
    induction hall with
    | nil => exact List.forall_mem_nil _
    | cons htu _ ih =>
        rw [List.forall_mem_cons] at hbelow ⊢
        exact ⟨htu _ hbelow.1, ih hbelow.2⟩
  deMorgan := by
    intro kind dual hdual token token' a b owner h
    obtain ⟨hkind, hkind'⟩ := isBinaryCombinator_of_dual hdual
    have hoperands := (h.operands rfl _ List.mem_cons_self).operands (isBare_of_binary hkind)
    exact .pair (isBare_of_binary hkind') (.one rfl (hoperands a (by simp)))
      (.one rfl (hoperands b (by simp)))
  comm := by
    intro kind hkind token a b owner h
    have hoperands := h.operands (isBare_of_binary hkind)
    exact .pair (isBare_of_binary hkind) (hoperands b (by simp)) (hoperands a (by simp))
  notNot := by
    intro token token' t owner h
    exact (h.operands rfl _ List.mem_cons_self).operands rfl _ List.mem_cons_self

end Graph

namespace Query

variable {q : Query α}

/-- Compiling again changes neither the engine nor the graph. -/
theorem compile_keeps (q : Query α) : q.compile.engine = q.engine ∧ q.compile.graph = q.graph := by
  unfold compile
  split
  · exact ⟨rfl, rfl⟩
  · exact ⟨rfl, rfl⟩

/-- A query keeps the engine that it was made with. -/
theorem Reachable.engine_eq (h : Reachable engine q) : q.engine = engine := by
  induction h with
  | parsed text mode =>
      unfold Engine.parse
      split
      · rfl
      · exact (compile_keeps _).1
  | @optimized q _ options ih =>
      unfold optimize
      split
      · exact (compile_keeps _).1.trans ih
      · exact ih
  | returning _ _ ih => exact ih

/-- **What parsing gives to the tree of a query and optimization keeps**, the
tree of every valid query has, however often it was optimized. -/
theorem Reachable.tree_has {P : String → Tree Content → Prop}
    (hparsed : ∀ {text mode ls t}, engine.Evaluates text mode ls t →
      P text (enumerated (promote t).value))
    (hkept : ∀ {text t} options, P text t → P text (Graph.optimized options t))
    (h : Reachable engine q) (hvalid : q.isValid = true) :
    ∃ s, Holds q.graph s ∧ P q.text (s.map Spot.content) := by
  induction h with
  | parsed text mode =>
      obtain ⟨ls, t, ht⟩ := Engine.exists_evaluates hvalid
      obtain ⟨s, hcopy, hs, -⟩ := ofTree_holds (enumerated (promote t).value)
      rw [← ht.graph] at hs
      refine ⟨s, hs, ?_⟩
      rw [parse_text, hcopy.content]
      exact hparsed ht
  | @optimized q hq options ih =>
      cases hbefore : q.isValid with
      | false =>
          rw [optimize_of_not_isValid hbefore] at hvalid ⊢
          exact ih hvalid
      | true =>
          obtain ⟨s, hs, hhas⟩ := ih hbefore
          obtain ⟨g', s', hrun, hs', hcontent⟩ := hs.optimize options
          refine ⟨s', ?_, ?_⟩
          · rw [optimize, if_pos hbefore, (compile_keeps _).2, hrun]
            exact hs'
          · rw [(optimize_frame hq.isSound.compiled options).1, hcontent]
            exact hkept options hhas
  | returning _ _ ih => exact ih hvalid

/-- What a valid query evaluates: the tree in its graph. -/
structure EvaluatesTree (engine : Engine α) (q : Query α) (u : Tree Place) : Prop where
  tree : q.graph.tree? = some u
  root : ∀ r, q.graph.root = some r → q.graph.kind r = u.label.kind
  shape : IsEvaluationTree (u.map Place.content)
  owned : IsOwned none (u.map Place.content)
  clean : (engine.planOf (u.map Place.content)).notes = []
  plan : q.activePlan? = some (engine.planOf (u.map Place.content)).value

/-- A valid query evaluates some tree. -/
theorem Reachable.exists_tree (h : Reachable engine q) (hvalid : q.isValid = true) :
    ∃ u, EvaluatesTree engine q u := by
  obtain ⟨s, hs, hclean, hplan⟩ := h.isSound.compiled hvalid
  rw [h.engine_eq] at hclean hplan
  -- Nested queries know their filters.
  obtain ⟨s', hs', howned⟩ := h.tree_has (P := fun _ => IsOwned none)
    (fun ht => (Draft.isOwned_of_prune (by simp [ht.errors]) ht.pruned).promote.enumerated)
    (fun options => isOwned_allowsRewriting.optimized options _ none) hvalid
  obtain rfl : s' = s := Option.some.inj (hs'.tree.symm.trans hs.tree)
  obtain ⟨u, hu, rfl⟩ := hs.exists_tree
  have hcontent : (u.map Place.spot).map Spot.content = u.map Place.content := by
    rw [Tree.map_map]
    rfl
  rw [hcontent] at hclean hplan howned
  have hshape : IsEvaluationTree (u.map Place.content) := by
    rcases h.isSound.graph with hnone | ⟨s'', hs'', hshape⟩
    · cases hnone.symm.trans hs.root
    · obtain rfl : s'' = u.map Place.spot := Option.some.inj (hs''.tree.symm.trans hs.tree)
      rwa [hcontent] at hshape
  refine ⟨u, hu, fun r hr => ?_, hshape, howned, hclean, by rw [activePlan?, if_pos hvalid, hplan]⟩
  obtain rfl : rootId (u.map Place.spot) = r := Option.some.inj (hs.root.symm.trans hr)
  rw [hs.laid.kind_root, Tree.label_map]
  rfl

/-- The nested queries of a valid query are those of the tree that it
evaluates. -/
theorem EvaluatesTree.nestedQueries {u : Tree Place} (h : EvaluatesTree engine q u) :
    q.graph.nestedQueries = nestedQueriesOf (u.map Place.content) := by
  rw [Graph.nestedQueries, places, h.tree, nestedQueriesOf, Tree.preorder_map, List.filterMap_map]
  rfl

end Query

/-- A condition that another one is made of, at its root or as an operand. -/
inductive Condition.IsPart (part : Condition α) : Condition α → Prop where
  | self : IsPart part part
  | bothLeft {a b : Condition α} (h : IsPart part a) : IsPart part (.both a b)
  | bothRight {a b : Condition α} (h : IsPart part b) : IsPart part (.both a b)
  | eitherLeft {a b : Condition α} (h : IsPart part a) : IsPart part (.either a b)
  | eitherRight {a b : Condition α} (h : IsPart part b) : IsPart part (.either a b)
  | negation {a : Condition α} (h : IsPart part a) : IsPart part (.negation a)

/-- A tree that another one is made of, at its root or below. -/
inductive Tree.IsWithin {β : Type} (t : Tree β) : Tree β → Prop where
  | self : IsWithin t t
  | child {l : β} {ts : List (Tree β)} {u : Tree β} (hu : u ∈ ts) (h : IsWithin t u) :
      IsWithin t (.node l ts)

namespace Tree.IsWithin

variable {β γ : Type} {t u v : Tree β} {l : β}

/-- Within a leaf there is only the leaf. -/
theorem eq_leaf (h : t.IsWithin (.leaf l)) : t = .leaf l := by
  cases h with
  | self => rfl
  | child hu => cases hu

/-- Within a tree with one child there is the whole or what is within the
child. -/
theorem of_one (h : t.IsWithin (.node l [u])) : t = .node l [u] ∨ t.IsWithin u := by
  cases h with
  | self => exact .inl rfl
  | child hu h => exact .inr (List.mem_singleton.mp hu ▸ h)

/-- Within a tree with two children there is the whole or what is within one of
them. -/
theorem of_pair (h : t.IsWithin (.node l [u, v])) :
    t = .node l [u, v] ∨ t.IsWithin u ∨ t.IsWithin v := by
  cases h with
  | self => exact .inl rfl
  | child hu h =>
      rcases List.mem_pair.mp hu with rfl | rfl
      · exact .inr (.inl h)
      · exact .inr (.inr h)

/-- What is within a tree is so however the labels change. -/
theorem map (h : IsWithin t u) (f : β → γ) : IsWithin (t.map f) (u.map f) := by
  induction h with
  | self => exact .self
  | child hu _ ih =>
      rw [Tree.map_node]
      exact .child (List.mem_map_of_mem hu) ih

end Tree.IsWithin

/-- A filter without an error has arguments. -/
theorem Engine.arguments_of_clean {found : FoundFilter α} {f : FilterExpression} {token : Token}
    (h : (engine.arguments found f token).notes = []) :
    ∃ args, (engine.arguments found f token).value = some args := by
  unfold arguments at h ⊢
  dsimp only at h ⊢
  split at h
  · exact ⟨_, rfl⟩
  · cases h
  · split at h
    · exact ⟨_, rfl⟩
    · cases h

/-- What a filter with a nested query for its value compiles to. -/
theorem Engine.compileNestedFilter_cases {f : FilterExpression} {token : Token}
    {source : Compiled (Plan α)} (hclean : (engine.compileNestedFilter f token source).notes = []) :
    engine.findFilter? f.name = none ∧
        (engine.compileNestedFilter f token source).value = .never ∨
      ∃ found transform args, engine.findFilter? f.name = some found ∧
        (engine.arguments found f token).value = some args ∧ source.notes = [] ∧
        ((∃ decide, found.filter.source = .decider decide ∧
          (engine.compileNestedFilter f token source).value =
            .decideNested { args, operator := f.operator, decide } transform source.value) ∨
          ∃ read handler, found.filter.source = .reader read ∧
            (engine.compileNestedFilter f token source).value =
              .compareNested { label := found.filter.label, read := read args } handler
                (engine.comparisonFor found.filter) transform source.value) := by
  unfold compileNestedFilter at hclean ⊢
  cases hfound : engine.findFilter? f.name with
  | none => exact .inl ⟨rfl, rfl⟩
  | some found =>
      right
      rw [hfound] at hclean
      dsimp only at hclean ⊢
      cases hnested : found.filter.nested with
      | none =>
          rw [hnested] at hclean
          cases hclean
      | some transform =>
          rw [hnested] at hclean
          dsimp only at hclean ⊢
          rw [Noted.notes_bind] at hclean
          obtain ⟨hargs, hclean⟩ := List.append_eq_nil_iff.mp hclean
          obtain ⟨args, hvalue⟩ := arguments_of_clean hargs
          rw [hvalue, Noted.notes_bind] at hclean
          rw [Noted.value_bind, hvalue, Noted.value_bind]
          obtain ⟨hsource, hclean⟩ := List.append_eq_nil_iff.mp hclean
          refine ⟨found, transform.read, args, rfl, hvalue, hsource, ?_⟩
          cases hfilter : found.filter.source with
          | decider decide => exact .inl ⟨decide, rfl, rfl⟩
          | reader read =>
              rw [hfilter] at hclean
              cases hhandler : (engine.operators.find? f.operator).bind
                  (·.resolve? found.filter.type transform.type) with
              | none =>
                  dsimp only at hclean
                  rw [hhandler] at hclean
                  cases hclean
              | some handler => exact .inr ⟨read, handler, rfl, by dsimp only; rfl⟩

namespace Graph

variable {t : Tree Content} {f : FilterExpression} {token : Token} {source : Tree Content}

/-- Sets are not made of conditions. -/
theorem IsSetTree.no_nestedFilter (h : IsSetTree t) :
    ¬ (Tree.node ⟨.nestedFilter f, token⟩ [source]).IsWithin t := by
  induction h with
  | block h =>
      intro hwithin
      cases h with
      | query q token => cases hwithin.eq_leaf
      | aggregator name q token token' =>
          rcases hwithin.of_one with heq | hdeep
          · cases heq
          · cases hdeep.eq_leaf
  | intersection _ _ ihl ihr | union _ _ ihl ihr =>
      intro hwithin
      rcases hwithin.of_pair with heq | hdeep | hdeep
      · cases heq
      · exact ihl hdeep
      · exact ihr hdeep

/-- The condition of two operands is made of theirs. -/
theorem conditionOf_binary {kind : NodeKind} {a b : Tree Content}
    (hkind : kind.isBinaryCombinator = true)
    (hclean : (engine.conditionOf (.node ⟨kind, token⟩ [a, b])).notes = []) :
    (engine.conditionOf a).notes = [] ∧ (engine.conditionOf b).notes = [] ∧
      ∀ part : Condition α,
        part.IsPart (engine.conditionOf a).value ∨ part.IsPart (engine.conditionOf b).value →
          part.IsPart (engine.conditionOf (.node ⟨kind, token⟩ [a, b])).value := by
  cases kind <;> cases hkind
  · rw [Engine.conditionOf_and] at hclean ⊢
    simp only [Noted.notes_bind, Noted.notes_pure, List.append_nil,
      List.append_eq_nil_iff] at hclean
    exact ⟨hclean.1, hclean.2, fun part h => h.elim .bothLeft .bothRight⟩
  · rw [Engine.conditionOf_or] at hclean ⊢
    simp only [Noted.notes_bind, Noted.notes_pure, List.append_nil,
      List.append_eq_nil_iff] at hclean
    exact ⟨hclean.1, hclean.2, fun part h => h.elim .eitherLeft .eitherRight⟩

/-- A nested query is no condition. -/
theorem IsSetTree.conditionOf_ne (h : IsSetTree t) : (engine.conditionOf t).notes ≠ [] := by
  intro hclean
  have hoperand := h.isSetOperand
  cases t with
  | node c ts =>
      have hnode := Engine.isConditionNode_of_clean hclean
      rw [Tree.label_node] at hoperand
      generalize hkind : c.kind = kind at hnode hoperand
      cases hnode <;> cases hoperand

/-- **Each filter in a condition has a condition of its own in what the
condition compiles to.** -/
theorem IsConditionTree.nestedFilter_isPart (h : IsConditionTree t) (howned : IsOwned none t)
    (hclean : (engine.conditionOf t).notes = [])
    (hwithin : (Tree.node ⟨.nestedFilter f, token⟩ [source]).IsWithin t) :
    Grammar.IsBlock source ∧ IsOwned (some f.name) source ∧
      (engine.conditionOf (.node ⟨.nestedFilter f, token⟩ [source])).notes = [] ∧
      (engine.conditionOf (.node ⟨.nestedFilter f, token⟩ [source])).value.IsPart
        (engine.conditionOf t).value := by
  induction h with
  | @binary kind _ a b hkind _ _ ihl ihr =>
      have hbelow := howned.operands (isBare_of_binary hkind)
      obtain ⟨ha, hb, hparts⟩ := conditionOf_binary hkind hclean
      rcases hwithin.of_pair with heq | hdeep | hdeep
      · cases heq
      · obtain ⟨hblock, hsource, hnode, hpart⟩ := ihl (hbelow _ (by simp)) ha hdeep
        exact ⟨hblock, hsource, hnode, hparts _ (.inl hpart)⟩
      · obtain ⟨hblock, hsource, hnode, hpart⟩ := ihr (hbelow _ (by simp)) hb hdeep
        exact ⟨hblock, hsource, hnode, hparts _ (.inr hpart)⟩
  | not _ ih =>
      rw [Engine.conditionOf_not] at hclean ⊢
      rcases hwithin.of_one with heq | hdeep
      · cases heq
      · obtain ⟨hblock, hsource, hnode, hpart⟩ :=
          ih (howned.operands rfl _ List.mem_cons_self) (List.append_eq_nil_iff.mp hclean).1 hdeep
        exact ⟨hblock, hsource, hnode, .negation hpart⟩
  | search s token => cases hwithin.eq_leaf
  | filter f token => cases hwithin.eq_leaf
  | nestedFilter f token hblock =>
      rcases hwithin.of_one with heq | hdeep
      · cases heq
        obtain ⟨-, hbelow⟩ := howned
        exact ⟨hblock, hbelow _ List.mem_cons_self, hclean, .self⟩
      · exact absurd hdeep (IsSetTree.block hblock).no_nestedFilter
  | set hs => exact absurd hclean hs.conditionOf_ne

end Graph

section Asking

/-- Reading a value asks no nested query. -/
theorem Reading.value_eq (r : Reading α) (e : α) :
    (r.value e).value = r.read.bind (· e) ∧ nestedCalls (r.value e).notes = [] := by
  unfold Reading.value
  cases r.read with
  | none => exact ⟨rfl, rfl⟩
  | some read => exact ⟨rfl, rfl⟩

/-- Looking through elements makes no calls to the handler of nested queries, if
asking about one does not. -/
theorem nestedCalls_search {p : α → Noted (Call α) Bool} (hp : ∀ e, nestedCalls (p e).notes = [])
    (calls : List (Call α)) (es : List α) :
    nestedCalls (Run.search p (ofCalls calls ++ ofElements es)).notes = nestedCalls calls := by
  have helements : nestedCalls (Run.search p (ofElements es)).notes = [] := by
    induction es with
    | nil => rfl
    | cons e es ih =>
        rw [show ofElements (e :: es) = .slot (some e) :: ofElements es from rfl, Run.search,
          Noted.notes_bind, nestedCalls_append, hp]
        cases (p e).value with
        | true => rfl
        | false => simpa using ih
  rw [Run.search_ofCalls, nestedCalls_append, helements, List.append_nil]

variable [BEq α]

/-- The handler is called before the first element of a nested query or of its
aggregate. -/
theorem run_of_isBlock {source : Tree Content} {name : String} (h : Grammar.IsBlock source)
    (howned : IsOwned (some name) source) (hclean : (engine.planOf source).notes = []) :
    ∃ nested calls es, nestedQueriesOf source = [nested] ∧
      (engine.planOf source).value.run .strict [] = ofCalls calls ++ ofElements es ∧
      nestedCalls calls = [(nested.query, name)] := by
  cases h with
  | query q token =>
      obtain ⟨handler, hvalue⟩ := planOf_query howned hclean
      rw [hvalue, Plan.run]
      exact ⟨q, [.nested q.query name], _, rfl, rfl, rfl⟩
  | aggregator aggregator q token token' =>
      obtain ⟨a, hsource, hvalue⟩ := planOf_aggregator_of_clean hclean
      obtain ⟨-, hbelow⟩ := howned
      have hquery : IsOwned (some name) (.leaf ⟨.nestedQuery q, token'⟩) :=
        hbelow _ List.mem_cons_self
      obtain ⟨handler, hhandler⟩ := planOf_query hquery hsource
      have hcalls : ((Plan.nested q.query name handler).run .strict []).calls =
          [.nested q.query name] := by
        rw [Plan.run, Run.calls_call, Run.calls_ofElements]
      rw [hvalue, hhandler, Plan.run, Option.getD_some, hcalls]
      exact ⟨q, [.nested q.query name, .aggregate a.label _], _, rfl, rfl, rfl⟩

omit [BEq α] in
/-- What asking a filter about an element makes of the nested query that is its
value: it is resolved under the name of the filter, but not if the filter is not
registered, and not if it is one that reads a value and there is none. -/
def Engine.resolutions (engine : Engine α) (f : FilterExpression) (token : Token) (query : String)
    (e : α) : List (String × String) :=
  match engine.findFilter? f.name with
  | none => []
  | some found =>
    match found.filter.source with
    | .decider _ => [(query, f.name)]
    | .reader read =>
      match (engine.arguments found f token).value.bind fun args => (read args).bind (· e) with
      | none => []
      | some _ => [(query, f.name)]

/-- **Asking a filter about an element resolves its nested query once**, under
the name of the filter, or not at all. -/
theorem nestedCalls_of_nestedFilter {f : FilterExpression} {token : Token} {source : Tree Content}
    (hblock : Grammar.IsBlock source) (howned : IsOwned (some f.name) source)
    (hclean : (engine.conditionOf (.node ⟨.nestedFilter f, token⟩ [source])).notes = []) :
    ∃ nested, nestedQueriesOf source = [nested] ∧ ∀ e, nestedCalls
        ((engine.conditionOf (.node ⟨.nestedFilter f, token⟩ [source])).value.holds e).notes =
      engine.resolutions f token nested.query e := by
  rw [Engine.conditionOf_nestedFilter] at hclean ⊢
  rcases Engine.compileNestedFilter_cases hclean with
    ⟨hnone, hvalue⟩ | ⟨found, transform, args, hfound, hargs, hsource, hcases⟩
  · obtain ⟨nested, hnested⟩ : ∃ nested, nestedQueriesOf source = [nested] := by
      cases hblock with
      | query q token => exact ⟨q, rfl⟩
      | aggregator name q token token' => exact ⟨q, rfl⟩
    refine ⟨nested, hnested, fun e => ?_⟩
    rw [hvalue, Engine.resolutions, hnone]
    rfl
  · obtain ⟨nested, calls, es, hnested, hrun, hcalls⟩ := run_of_isBlock hblock howned hsource
    refine ⟨nested, hnested, fun e => ?_⟩
    rw [Engine.resolutions, hfound]
    dsimp only
    rcases hcases with ⟨decide, hfilter, hvalue⟩ | ⟨read, handler, hfilter, hvalue⟩
    · rw [hfilter, hvalue, Condition.holds, hrun, nestedCalls_search, hcalls]
      intro found'
      cases transform found' <;> rfl
    · have hreading := Reading.value_eq { label := found.filter.label, read := read args } e
      rw [hfilter, hvalue, Condition.holds, Noted.notes_bind, nestedCalls_append, hreading.2,
        hreading.1, hargs]
      dsimp only
      rw [Option.bind_some]
      cases (read args).bind (· e) with
      | none => rfl
      | some l =>
          dsimp only
          rw [hrun, nestedCalls_search, hcalls]
          · rfl
          · intro found'
            cases transform found' <;> rfl

end Asking

namespace Query

variable [BEq α] {q : Query α}

/-- A traversal to the end makes these calls. -/
def Traverses (q : Query α) (payload : List α) (calls : List (Call α)) : Prop :=
  ∃ n slots t, Pulled n (q.traversal payload) calls slots t ∧ slots.length < n

/-- A query can be evaluated to the end. -/
theorem exists_traverses (q : Query α) (payload : List α) : ∃ calls, q.Traverses payload calls := by
  obtain ⟨calls, slots, t, h⟩ :=
    exists_pulled ((q.traversal payload).rest.slots.length + 1) (q.traversal payload)
  exact ⟨calls, _, slots, t, h, h.exhausts (Nat.lt_succ_self _)⟩

/-- Whoever goes to the end makes the calls of the run. -/
theorem Traverses.calls_eq {payload : List α} {calls : List (Call α)}
    (h : q.Traverses payload calls) : calls = (q.aligned payload).calls := by
  obtain ⟨n, slots, t, hpulled, hless⟩ := h
  rw [(hpulled.exhausted hless).1, q.rest_traversal]

/-- The nested queries in a graph, each of which is no filter's value. -/
def resolvedOnce (q : Query α) : List (String × String) :=
  q.graph.nestedQueries.map fun nested => (nested.query, "")

omit [BEq α] in
/-- A query of sets has a set expression for its plan, over the nested queries
in its graph. -/
theorem EvaluatesTree.isSetExpression {u : Tree Place} (h : EvaluatesTree engine q u)
    (hset : u.label.kind.isSetOperand = true) :
    ∃ plan, q.activePlan? = some plan ∧ plan.IsSetExpression ∧
      plan.nestedQueries = q.resolvedOnce := by
  have hlabel : (u.map Place.content).label.kind = u.label.kind := by
    rw [Tree.label_map]
    rfl
  generalize ht : u.map Place.content = t at hlabel
  have hshape := ht ▸ h.shape
  cases hshape with
  | set hs =>
      have hclean := ht ▸ h.clean
      refine ⟨_, ht ▸ h.plan, hs.isSetExpression hclean, ?_⟩
      rw [hs.nestedQueries_planOf (ht ▸ h.owned) hclean, resolvedOnce, h.nestedQueries, ht]
      rfl
  | select hc =>
      rw [← hlabel] at hset
      cases hset

/-- The condition of a filter with a nested query is part of the condition that
selects. -/
theorem EvaluatesTree.nestedFilter {u source : Tree Place} {p : Place} {f : FilterExpression}
    (h : EvaluatesTree engine q u) (hwithin : (Tree.node p [source]).IsWithin u)
    (hkind : p.kind = .nestedFilter f) :
    ∃ c nested, q.activePlan? = some (.select c) ∧
      source.preorder.filterMap (·.kind.nestedQuery?) = [nested] ∧
      (engine.compileCondition (.node p [source])).value.IsPart c ∧
      ∀ e, nestedCalls ((engine.compileCondition (.node p [source])).value.holds e).notes =
        engine.resolutions f p.token nested.query e := by
  have hnode : (Tree.node p [source]).map Place.content =
      .node ⟨.nestedFilter f, p.token⟩ [source.map Place.content] := by
    rw [Tree.map_node, ← hkind]
    rfl
  have hdeep := hwithin.map Place.content
  have hqueries : source.preorder.filterMap (·.kind.nestedQuery?) =
      nestedQueriesOf (source.map Place.content) := by
    rw [nestedQueriesOf, Tree.preorder_map, List.filterMap_map]
    rfl
  rw [(Engine.compile_eq (Tree.node p [source])).1, hqueries, h.plan]
  have hshape := h.shape
  have howned := h.owned
  have hclean := h.clean
  rw [hnode] at hdeep ⊢
  generalize u.map Place.content = t at hdeep hshape howned hclean ⊢
  cases hshape with
  | set hs => exact absurd hdeep hs.no_nestedFilter
  | select hc =>
      rcases hdeep.of_one with heq | hcondition
      · cases heq
      · rw [Engine.planOf_select] at hclean ⊢
        obtain ⟨hblock, hfilter, hnode, hpart⟩ :=
          hc.nestedFilter_isPart (howned.operands rfl _ List.mem_cons_self)
            (List.append_eq_nil_iff.mp hclean).1 hcondition
        obtain ⟨nested, hnested, hcalls⟩ := nestedCalls_of_nestedFilter hblock hfilter hnode
        exact ⟨_, nested, rfl, hnested, hpart, hcalls⟩

/-- **Nested queries are resolved lazily, and each time anew.**  If the root of
a valid query yields sets, then pulling from a traversal always comes to an end;
before the first pull no call is made; so far as it is pulled, each nested query
has been resolved once at most; and any number of traversals to the end resolve
each of them once in every traversal.  A test resolves it once at most.  A
filter with a nested query for its value resolves it each time it is asked about
an element, under its own name, but not if it is not registered or has no value
for the element. -/
theorem nested_queries_are_resolved_lazily (h : Reachable engine q) (hvalid : q.isValid = true) :
    (∀ r, q.graph.root = some r → (q.graph.kind r).isSetOperand = true →
      (∀ payload n, ∃ calls slots t, Pulled n (q.traversal payload) calls slots t) ∧
      (∀ payload n calls slots t, Pulled n (q.traversal payload) calls slots t →
        (n = 0 → calls = []) ∧ (nestedCalls calls).Subperm q.resolvedOnce) ∧
      (∀ payload, ∃ calls, q.Traverses payload calls) ∧
      (∀ rounds : List (List α × List (Call α)),
        (∀ round ∈ rounds, q.Traverses round.1 round.2) →
        (nestedCalls (rounds.flatMap (·.2))).Perm (rounds.flatMap fun _ => q.resolvedOnce)) ∧
      ∀ e, (nestedCalls (q.test e).notes).Subperm q.resolvedOnce) ∧
    ∀ u p source f, q.graph.tree? = some u → (Tree.node p [source]).IsWithin u →
      p.kind = .nestedFilter f →
      ∃ c nested, q.activePlan? = some (.select c) ∧
        source.preorder.filterMap (·.kind.nestedQuery?) = [nested] ∧
        (engine.compileCondition (.node p [source])).value.IsPart c ∧
        ∀ e, nestedCalls ((engine.compileCondition (.node p [source])).value.holds e).notes =
          engine.resolutions f p.token nested.query e := by
  obtain ⟨u, hu⟩ := h.exists_tree hvalid
  refine ⟨fun r hr hset => ?_, fun u' p source f hu' hwithin hkind => ?_⟩
  · rw [hu.root r hr] at hset
    obtain ⟨plan, hplan, hexpression, hqueries⟩ := hu.isSetExpression hset
    have hrun : ∀ payload, (nestedCalls (q.aligned payload).calls).Perm q.resolvedOnce := by
      intro payload
      rw [aligned, hplan, ← hqueries]
      exact hexpression.nestedCalls_perm _ _
    refine ⟨fun payload n => exists_pulled n _, fun payload n calls slots t hpulled => ⟨?_, ?_⟩,
      q.exists_traverses, fun rounds hrounds => ?_, fun e => ?_⟩
    · rintro rfl
      cases hpulled
      rfl
    · have hcalls := hpulled.rest.1
      rw [q.rest_traversal] at hcalls
      exact (nestedCalls_subperm hcalls).trans (hrun payload).subperm
    · have hround : ∀ round ∈ rounds, (nestedCalls round.2).Perm q.resolvedOnce := by
        intro round hround
        rw [(hrounds round hround).calls_eq]
        exact hrun round.1
      rw [nestedCalls, List.filterMap_flatMap]
      exact List.Perm.flatMap_left _ hround
    · obtain ⟨n, slots, t, hpulled⟩ := hexpression.exists_pulled_test e
      have hcalls := hpulled.rest.1
      rw [plan.rest_traversal] at hcalls
      rw [test_of_activePlan hplan, ← hqueries]
      exact (nestedCalls_subperm hcalls).trans (hexpression.nestedCalls_perm _ _).subperm
  · obtain rfl := Option.some.inj (hu.tree.symm.trans hu')
    exact hu.nestedFilter hwithin hkind

/-- The union of two nested queries, and a filter `on` with a nested query for
its value. -/
theorem resolutions_of_a_union_and_of_a_filter :
    let engine : Engine Bool :=
      { (({} : Engine Bool).addFilter ((Filter.ofGetter "on" id).withNestedScalar Bool some)).1 with
        nestedHandler := some fun query _ => if query = "yes" then [true] else [] }
    let union := engine.parse "\x7byes\x7d or \x7bno\x7d" .fast
    let selection := engine.parse "on:\x7byes\x7d"
    (∃ calls, union.Traverses [true] calls) ∧
      (∀ calls, union.Traverses [true] calls →
        (nestedCalls calls).Perm [("yes", ""), ("no", "")]) ∧
      (∀ e, (nestedCalls (union.test e).notes).Subperm [("yes", ""), ("no", "")]) ∧
      ∃ c part : Condition Bool, selection.activePlan? = some (.select c) ∧ part.IsPart c ∧
        ∀ e, nestedCalls (part.holds e).notes = [("yes", "on")] := by
  intro engine union selection
  have hunion : Reachable engine union := .parsed _ _
  have hselection : Reachable engine selection := .parsed _ _
  obtain ⟨hsets, -⟩ := nested_queries_are_resolved_lazily hunion (by decide +kernel)
  obtain ⟨-, hfilters⟩ := nested_queries_are_resolved_lazily hselection (by decide +kernel)
  obtain ⟨-, -, hends, hrounds, htest⟩ := hsets 2 (by decide +kernel) (by decide +kernel)
  have honce : union.resolvedOnce = [("yes", ""), ("no", "")] := by decide +kernel
  rw [honce] at hrounds htest
  refine ⟨hends [true], fun calls hcalls => ?_, htest, ?_⟩
  · have hround := hrounds [([true], calls)] (List.forall_mem_singleton.mpr hcalls)
    rw [List.flatMap_singleton, List.flatMap_singleton] at hround
    exact hround
  · let f : FilterExpression := { name := "on", operator := ":", value := "\x7byes\x7d" }
    let q : NestedExpression := { query := "yes", filter := some "on" }
    let token : Token := ⟨"on:\x7byes\x7d", 0, 8⟩
    let value : Node := { kind := .nestedQuery q, token := ⟨"\x7byes\x7d", 3, 5⟩, parent := some 1 }
    let filter : Node := { kind := .nestedFilter f, token, children := [0], parent := some 2 }
    let root : Node := { kind := .select, token, children := [1] }
    have hgraph : selection.graph = { nodes := #[value, filter, root], root := some 2 } := by
      decide +kernel
    have htree : selection.graph.tree? =
        some (.node ⟨2, root⟩ [.node ⟨1, filter⟩ [.leaf ⟨0, value⟩]]) := by
      rw [hgraph]
      rfl
    obtain ⟨c, nested, hplan, hnested, hpart, hcalls⟩ :=
      hfilters _ ⟨1, filter⟩ (.leaf ⟨0, value⟩) f htree (.child List.mem_cons_self .self) rfl
    obtain rfl : q = nested := List.head_eq_of_cons_eq hnested
    have hresolved : ∀ e, engine.resolutions f token "yes" e = [("yes", "on")] := by
      decide +kernel
    exact ⟨c, _, hplan, hpart, fun e => (hcalls e).trans (hresolved e)⟩

/-- Unless filters are checked, one that is not registered may stand in a valid
query.  It never matches, and its nested query is never resolved. -/
theorem resolutions_of_an_unregistered_filter :
    let engine : Engine Bool :=
      { validation := { checksFilters := false }
        nestedHandler := some fun _ _ => [true] }
    let q := engine.parse "nosuch:\x7bx\x7d"
    q.isValid = true ∧ (∃ r, q.graph.root = some r ∧ q.graph.kind r = .select) ∧
      (q.graph.nestedQueries.map fun nested => (nested.query, nested.filter)) =
        [("x", some "nosuch")] ∧
      engine.findFilter? "nosuch" = none ∧ nestedCalls (q.test true).notes = [] := by
  intro engine q
  refine ⟨by decide +kernel, ⟨2, by decide +kernel, by decide +kernel⟩, by decide +kernel, rfl,
    by decide +kernel⟩

end Query

end FilterQuery
