import FilterQuery.Proofs.Nesting
import FilterQuery.Proofs.Residues
import FilterQuery.Proofs.Whitelists

/-!
# Texts that say the same

Two texts whose lexemes say the same, wherever they stand, are queries with the
same answers: there are errors in both or in none, and both yield the same
slots.  The engines of the two may even resolve nested queries in different
ways, as long as they agree on those that stand in the text; for these are the
only ones that are evaluated.
-/

namespace FilterQuery

open FilterQuery.Graph Grammar Lexeme

variable {α : Type}

/-- What a handler makes of a nested query. -/
def NestedExpression.resolvedBy (q : NestedExpression) (handler : String → String → List α) :
    List α :=
  handler q.query (q.filter.getD "")

/-- The engine with a handler of nested queries. -/
def Engine.resolving (engine : Engine α) (handler : String → String → List α) : Engine α :=
  { engine with nestedHandler := some handler }

namespace View

variable {v : View}

mutual

/-- A view keeps the kinds of the operands in a lexeme. -/
theorem kinds_operands : ∀ l : Lexeme,
    (operands (v.lexeme l)).map (·.kind) = (operands l).map (·.kind)
  | .group inner _ => kinds_operandsOf inner
  | .and _ | .or _ | .not _ => rfl
  | .nested b => by
      rw [lexeme, operands, operands, blockOperands, blockOperands, block]
      cases b.aggregator <;> rfl
  | .filter _ none _ => rfl
  | .filter f (some b) _ => by
      rw [lexeme, Option.map_some, operands, operands, blockOperands, blockOperands, block]
      cases b.aggregator <;> rfl
  | .toggle _ _ | .comment _ _ | .word _ _ => rfl

/-- A view keeps the kinds of the operands in lexemes. -/
theorem kinds_operandsOf : ∀ ls : List Lexeme,
    (operandsOf (v.lexemes ls)).map (·.kind) = (operandsOf ls).map (·.kind)
  | [] => rfl
  | l :: ls => by
      rw [lexemes, operandsOf, operandsOf, List.map_append, List.map_append, kinds_operands l,
        kinds_operandsOf ls]

end

/-- Lexemes that say the same hold the same nested queries. -/
theorem SameSense.nests {ls ls' : List Lexeme} {q : NestedExpression} (h : SameSense ls ls') :
    Nests ls' q ↔ Nests ls q := by
  rw [SameSense] at h
  rw [nests_iff, nests_iff, ← kinds_operandsOf ls', h, kinds_operandsOf]

end View

section Plans

variable [BEq α] {engine : Engine α} {handler handler' : String → String → List α}

/-- Nested queries whose handlers give the same agree. -/
theorem Plan.Agrees.nested {query filter : String}
    (h : handler' query filter = handler query filter) :
    (Plan.nested query filter handler).Agrees (.nested query filter handler') := by
  refine .of_slots (by simp) (by simp) fun mode payload => ?_
  rw [run, run, h]

omit [BEq α] in
/-- Trees of the same kinds have the same gist. -/
theorem Graph.SameKinds.gist {t t' : Tree Content} (h : SameKinds t t') :
    t.map (·.kind.gist) = t'.map (·.kind.gist) := by
  have hgist := congrArg (Tree.map NodeKind.gist) h
  rwa [Tree.map_map, Tree.map_map] at hgist

end Plans

namespace View

variable {v : View}

def content (v : View) (c : Content) : Content := ⟨c.kind, v.token c.token⟩

/-- Leaving out operands may come before the view or behind it. -/
theorem retain_content (c : Content) (ts : List (Tree Content)) :
    retain (v.content c) (ts.map (Tree.map v.content)) =
      (retain c ts).map (Tree.map v.content) := by
  have hkind : (v.content c).kind = c.kind := rfl
  rcases ts with _ | ⟨only, _ | ⟨second, more⟩⟩
  · simp only [List.map_nil, retain, hkind]
    split <;> rfl
  · simp only [List.map_cons, List.map_nil, retain, hkind]
    split <;> rfl
  · simp only [List.map_cons, retain, Option.map_some, Tree.map_node]

/-- What is seen of what pruning leaves is what it leaves of what is seen. -/
theorem prune_place (hv : v.verdicts = true) (t : Tree Place) :
    prune (t.map v.place) = (prune t).map (Tree.map v.content) := by
  induction t with
  | node p ts ih =>
      have hskipped : (v.place p).node.skipped = p.node.skipped := by simp [place, node, hv]
      have hkind : (v.place p).kind = p.kind := rfl
      rw [Tree.map_node]
      cases hskip : p.node.skipped with
      | true => rw [prune, prune, hskipped, hskip, if_pos rfl, if_pos rfl, Option.map_none]
      | false =>
          by_cases hretained : IsRetained p.kind
          · have hbelow : (ts.map (Tree.map v.place)).filterMap prune =
                (ts.filterMap prune).map (Tree.map v.content) := by
              rw [List.filterMap_map, List.map_filterMap]
              exact List.filterMap_congr fun t ht => ih t ht
            rw [prune_node (hskipped.trans hskip) hretained, prune_node hskip hretained, hbelow,
              ← retain_content]
            rfl
          · rw [prune, prune, hskipped, hskip, hkind]
            cases h : p.kind <;> simp only [h, IsRetained, not_true_eq_false] at hretained
            case group =>
              cases ts with
              | nil => rfl
              | cons t ts => exact ih t List.mem_cons_self
            all_goals rfl

end View

namespace Draft

variable {known : Knowledge} (hknown : known.IsSemantic) (text text' : String)
  {ls ls' : List Lexeme} (h : View.SameSense ls ls')
include hknown h

/-- Lexemes that say the same are drafted to what says the same. -/
theorem sense_ofLexemes :
    View.sense.draft (ofLexemes known text' ls') = View.sense.draft (ofLexemes known text ls) := by
  rw [View.draft_ofLexemes hknown, View.draft_ofLexemes hknown, h]
  rfl

/-- Lexemes that say the same are drafted with errors or without, both of
them. -/
theorem errors_of_sense :
    (ofLexemes known text' ls').errors = [] ↔ (ofLexemes known text ls).errors = [] := by
  have herrors := congrArg Draft.errors (sense_ofLexemes hknown text text' h)
  have hboth : (ofLexemes known text' ls').errors.map View.sense.error =
      (ofLexemes known text ls).errors.map View.sense.error := by
    rw [← View.errors_of_verdicts rfl, ← View.errors_of_verdicts rfl]
    exact herrors
  rw [← List.map_eq_nil_iff (f := View.sense.error), hboth, List.map_eq_nil_iff]

/-- What is left of the two has nodes of the same kinds. -/
theorem prune_of_sense :
    ((ofLexemes known text' ls').graph.tree?.bind prune).map (Tree.map (·.kind)) =
      ((ofLexemes known text ls).graph.tree?.bind prune).map (Tree.map (·.kind)) := by
  have hgraph := congrArg Draft.graph (sense_ofLexemes hknown text text' h)
  have hleft : ∀ g : Graph, ((View.sense.graph g).tree?.bind prune).map (Tree.map (·.kind)) =
      (g.tree?.bind prune).map (Tree.map (·.kind)) := by
    intro g
    rw [View.tree?_graph]
    cases g.tree? with
    | none => rfl
    | some t =>
        rw [Option.map_some, Option.bind_some, Option.bind_some, View.prune_place rfl,
          Option.map_map]
        refine congrArg (Option.map · (prune t)) (funext fun v => ?_)
        exact Tree.map_map _ _ v
  rw [← hleft, ← hleft (ofLexemes known text ls).graph]
  exact congrArg (fun g : Graph => (g.tree?.bind prune).map (Tree.map (·.kind))) hgraph

/-- Without errors there is nothing to evaluate in either, or two trees with
nodes of the same kinds. -/
theorem evaluation_of_sense (hclean : (ofLexemes known text ls).errors = []) :
    let d := ofLexemes known text ls
    let d' := ofLexemes known text' ls'
    d.evaluation = pure {} ∧ d'.evaluation = pure {} ∨
      ∃ v v', d.graph.tree?.bind prune = some v ∧ SameKinds v v' ∧
        d.evaluation = ⟨ofTree (enumerated (promote v).value), (promote v).notes⟩ ∧
        d'.evaluation = ⟨ofTree (enumerated (promote v').value), (promote v').notes⟩ := by
  intro d d'
  have hclean' : d'.errors = [] := (errors_of_sense hknown text text' h).mpr hclean
  have hprune : (d'.graph.tree?.bind prune).map (Tree.map (·.kind)) =
      (d.graph.tree?.bind prune).map (Tree.map (·.kind)) := prune_of_sense hknown text text' h
  have hcases := evaluation_of_clean (show ∀ e ∈ d.errors, e.isFatal = false by simp [d, hclean])
  have hcases' := evaluation_of_clean
    (show ∀ e ∈ d'.errors, e.isFatal = false by simp [hclean'])
  rcases hcases with ⟨hnone, heq⟩ | ⟨v, hv, -, heq⟩
  · rcases hcases' with ⟨-, heq'⟩ | ⟨v', hv', -, -⟩
    · exact .inl ⟨heq, heq'⟩
    · exact absurd hprune (by simp [d, d', hnone, hv'])
  · rcases hcases' with ⟨hnone', -⟩ | ⟨v', hv', -, heq'⟩
    · exact absurd hprune (by simp [d, d', hnone', hv])
    · have hkinds : Tree.map (·.kind) v' = Tree.map (·.kind) v := by
        simpa [d, d', hv, hv'] using hprune
      exact .inr ⟨v, v', hv, hkinds.symm, heq, heq'⟩

end Draft

section Queries

variable [BEq α]

namespace Query

/-- There are errors in both queries or in none, and both yield the same
slots. -/
structure SameAnswers (q q' : Query α) : Prop where
  errors : q'.errors = [] ↔ q.errors = []
  slots : ∀ payload, (q'.aligned payload).slots = (q.aligned payload).slots

/-- Queries with the same answers have the same results. -/
theorem SameAnswers.results {q q' : Query α} (h : SameAnswers q q') (payload : List α) :
    q'.results payload = q.results payload := by
  rw [results_eq, results_eq, Run.elements_eq, Run.elements_eq, h.slots]

omit [BEq α] in
/-- Compiling keeps the mode of a query, and whether it returns its payload. -/
theorem compile_frame (q : Query α) :
    q.compile.mode = q.mode ∧ q.compile.returnsPayload = q.returnsPayload := by
  unfold compile
  split <;> exact ⟨rfl, rfl⟩

/-- A query that is empty or has errors yields the payload, as it does unless
told otherwise. -/
theorem aligned_of_not_isValid {q : Query α} (hreturns : q.returnsPayload = true)
    (h : q.isValid = false) (payload : List α) : q.aligned payload = Run.ofElements payload := by
  rw [aligned, activePlan?, h, if_neg (by simp)]
  exact if_pos hreturns

end Query

namespace Engine

omit [BEq α] in
/-- A new query has its mode, and returns its payload if there is nothing to
evaluate. -/
theorem parse_frame (engine : Engine α) (text : String) (mode : Mode) :
    (engine.parse text mode).mode = mode ∧ (engine.parse text mode).returnsPayload = true := by
  unfold parse
  split
  · exact ⟨rfl, rfl⟩
  · exact Query.compile_frame _

omit [BEq α] in
/-- A text that cannot be scanned gives an error. -/
theorem errors_of_scan_error (engine : Engine α) {text : String} {e : QueryError}
    (h : scan engine.alphabet text = .error e) (mode : Mode) :
    (engine.parse text mode).errors ≠ [] := by
  rw [parse, h]
  simp

/-- A query with errors yields its payload. -/
theorem aligned_of_errors {engine : Engine α} {text : String} {mode : Mode}
    (h : (engine.parse text mode).errors ≠ []) (payload : List α) :
    (engine.parse text mode).aligned payload = Run.ofElements payload := by
  refine Query.aligned_of_not_isValid (engine.parse_frame _ _).2 ?_ payload
  simp [Query.isValid, h]

variable {engine : Engine α} {handler handler' : String → String → List α} {text text' : String}
  {ls ls' : List Lexeme} (mode : Mode)

/-- A query with nothing to evaluate yields its payload. -/
theorem aligned_of_nothing (hscan : scan engine.alphabet text = .ok ls)
    (herrors : (Draft.ofLexemes engine.knowledge text ls).errors = [])
    (hevaluation : (Draft.ofLexemes engine.knowledge text ls).evaluation = pure {})
    (payload : List α) : (engine.parse text mode).aligned payload = Run.ofElements payload := by
  refine Query.aligned_of_not_isValid (engine.parse_frame _ _).2 ?_ payload
  simp [Query.isValid, (parse_of_nothing mode hscan herrors hevaluation).1, Graph.isEmpty]

/-- A query without errors yields what the plan of its tree does. -/
theorem aligned_of_tree {t : Tree Content} (hscan : scan engine.alphabet text = .ok ls)
    (herrors : (Draft.ofLexemes engine.knowledge text ls).errors = [])
    (hevaluation : (Draft.ofLexemes engine.knowledge text ls).evaluation = ⟨ofTree t, []⟩)
    (hclean : (engine.planOf t).notes = []) (payload : List α) :
    (engine.parse text mode).aligned payload = (engine.planOf t).value.run mode payload := by
  obtain ⟨hmode, hgraph, hnotes, hplan⟩ := parse_of_tree mode hscan herrors hevaluation
  obtain ⟨s, -, hs, -⟩ := ofTree_holds t
  have hvalid : (engine.parse text mode).isValid = true := by
    simp [Query.isValid, hnotes, hclean, hgraph, Graph.isEmpty, hs.root]
  rw [Query.aligned, Query.activePlan?, if_pos hvalid, hplan]
  simp only [hmode]

/-- A query without errors gives the same answers in other words, and by an
engine that agrees on the nested queries in it. -/
theorem answers_of_clean (hscan : scan engine.alphabet text = .ok ls)
    (hscan' : scan engine.alphabet text' = .ok ls')
    (hsense : View.SameSense ls ls')
    (hnested : ∀ q, Nests ls q → q.resolvedBy handler' = q.resolvedBy handler)
    (hclean : ((engine.resolving handler).parse text mode).errors = []) :
    ((engine.resolving handler').parse text' mode).errors = [] ∧
      ∀ payload, (((engine.resolving handler').parse text' mode).aligned payload).slots =
        (((engine.resolving handler).parse text mode).aligned payload).slots := by
  -- Both engines have the same operators, and know the same about names.
  let known := (engine.resolving handler).knowledge
  let known' := (engine.resolving handler').knowledge
  replace hscan : scan (engine.resolving handler).alphabet text = .ok ls := hscan
  replace hscan' : scan (engine.resolving handler').alphabet text' = .ok ls' := hscan'
  have hknown : known.IsSemantic := (engine.resolving handler).knowledge_isSemantic
  obtain ⟨herrors, hnotes⟩ := draft_of_clean mode hscan hclean
  have herrors' : (Draft.ofLexemes known' text' ls').errors = [] :=
    (Draft.errors_of_sense hknown text text' hsense).mpr herrors
  have hevaluation := Draft.evaluation_of_sense hknown text text' hsense herrors
  rcases hevaluation with ⟨heq, heq'⟩ | ⟨v, v', hv, hkinds, heq, heq'⟩
  · refine ⟨(parse_of_nothing mode hscan' herrors' heq').2, fun payload => ?_⟩
    rw [aligned_of_nothing mode hscan herrors heq, aligned_of_nothing mode hscan' herrors' heq']
  · rw [heq] at hnotes
    rw [hnotes] at heq
    rw [hkinds.promote_notes.mp hnotes] at heq'
    have hnested' : ∀ c ∈ (enumerated (promote v).value).preorder, ∀ q,
        c.kind = .nestedQuery q → q.resolvedBy handler' = q.resolvedBy handler := by
      intro c hc q hq
      have hpayload : c.kind.isPayload = true := by rw [hq]; rfl
      exact hnested q ⟨c, (Draft.payload_of_prune herrors hv hc hpayload).1, hq⟩
    have hacross : StandsAcross (engine.resolving handler) (engine.resolving handler')
        (enumerated (promote v).value) (enumerated (promote v').value) :=
      .of_sameGist ⟨some handler', rfl⟩ hkinds.promote.enumerated.gist
        fun c hc q hq _ _ => ⟨rfl, .nested (hnested' c hc q hq)⟩
    have hplan := (parse_of_tree mode hscan herrors heq).2.2.1.symm.trans hclean
    obtain ⟨hplan', hagrees⟩ := hacross.plan hplan
    refine ⟨(parse_of_tree mode hscan' herrors' heq').2.2.1.trans hplan', fun payload => ?_⟩
    rw [aligned_of_tree mode hscan herrors heq hplan,
      aligned_of_tree mode hscan' herrors' heq' hplan']
    exact hagrees.slots mode payload

/-- **Texts that say the same get the same answers.** -/
theorem sameAnswers_of_alike
    (hscan : Alike View.SameSense
      (scan engine.alphabet text) (scan engine.alphabet text'))
    (hnested : ∀ ls, scan engine.alphabet text = .ok ls → ∀ q, Nests ls q →
      q.resolvedBy handler' = q.resolvedBy handler) :
    ((engine.resolving handler).parse text mode).SameAnswers
      ((engine.resolving handler').parse text' mode) := by
  generalize hleft : scan engine.alphabet text = left at hscan hnested
  generalize hright : scan engine.alphabet text' = right at hscan
  cases hscan with
  | error e e' =>
      have herrors : ((engine.resolving handler).parse text mode).errors ≠ [] :=
        errors_of_scan_error (engine.resolving handler) hleft mode
      have herrors' : ((engine.resolving handler').parse text' mode).errors ≠ [] :=
        errors_of_scan_error (engine.resolving handler') hright mode
      exact ⟨by simp [herrors, herrors'], fun payload => by
        rw [aligned_of_errors herrors, aligned_of_errors herrors']⟩
  | @ok ls ls' hsense =>
      have hforward := answers_of_clean mode hleft hright hsense (hnested ls rfl)
      have hnested' : ∀ q, Nests ls' q → q.resolvedBy handler = q.resolvedBy handler' :=
        fun q hq => (hnested ls rfl q (hsense.nests.mp hq)).symm
      have hbackward := answers_of_clean mode hright hleft hsense.symm hnested'
      refine ⟨⟨fun h => (hbackward h).1, fun h => (hforward h).1⟩, fun payload => ?_⟩
      by_cases hclean : ((engine.resolving handler).parse text mode).errors = []
      · exact (hforward hclean).2 payload
      · rw [aligned_of_errors hclean, aligned_of_errors fun h => hclean (hbackward h).1]

end Engine

end Queries

end FilterQuery
