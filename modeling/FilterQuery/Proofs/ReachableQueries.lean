import FilterQuery.Proofs.EmptyGroups
import FilterQuery.Proofs.ErrorKinds
import FilterQuery.Proofs.OptimizedQueries

/-!
# Reachable queries

A program gets its queries from an engine, and then may optimize them and choose
what they give back if there is nothing to evaluate, in any order and as often
as it likes.  What each of these keeps holds of every query that it can have:
the graph of a query is empty or holds a tree of the shape to be evaluated, and
no error is an internal one.
-/

namespace FilterQuery

open FilterQuery.Graph

variable {α : Type} {engine : Engine α}

namespace Query

/-- The queries that a program can have from an engine. -/
inductive Reachable (engine : Engine α) : Query α → Prop where
  | parsed (text : String) (mode : Mode) : Reachable engine (engine.parse text mode)
  | optimized {q : Query α} (h : Reachable engine q) (options : OptimizationOptions) :
      Reachable engine (q.optimize options)
  | returning {q : Query α} (h : Reachable engine q) (returnsPayload : Bool) :
      Reachable engine { q with returnsPayload }

/-- A graph that can be evaluated: there is nothing in it, or a tree of the
right shape. -/
def IsEvaluable (g : Graph) : Prop :=
  g.root = none ∨ ∃ s, Holds g s ∧ IsEvaluationTree (s.map Spot.content)

/-- The query is as a program may expect it to be. -/
structure IsSound (q : Query α) : Prop where
  graph : IsEvaluable q.graph
  errors : AllExternal q.errors
  compiled : q.IsCompiled

/-- The graph of an evaluation tree can be evaluated. -/
theorem ofTree_isEvaluable {t : Tree Content} (h : IsEvaluationTree t) :
    IsEvaluable (ofTree t) := by
  obtain ⟨s, hcopy, hs, -⟩ := ofTree_holds t
  exact .inr ⟨s, hs, hcopy.content.symm ▸ h⟩

/-- A graph that can be evaluated is valid. -/
theorem IsEvaluable.validate {g : Graph} (h : IsEvaluable g) : g.validate = [] := by
  rcases h with hroot | ⟨s, hs, hshape⟩
  · rw [Graph.validate, places, tree?, hroot]
    rfl
  · exact hs.validate hshape.saturated

/-- What compilation finds in such a graph are errors of meaning. -/
theorem IsEvaluable.compile_semantic {g : Graph} (h : IsEvaluable g) :
    ∀ e ∈ (engine.compile g).notes, e.kind = .semantic := by
  rcases h with hroot | ⟨s, hs, hshape⟩
  · rw [Engine.compile, tree?, hroot]
    simp
  · rw [hs.compile]
    exact hshape.planOf_meaning

/-- Compilation of such a graph reports no internal error. -/
theorem IsEvaluable.compile {g : Graph} (h : IsEvaluable g) :
    AllExternal (engine.compile g).notes := .of_semantic h.compile_semantic

/-- **Optimization keeps graphs evaluable**, and reports nothing. -/
theorem IsEvaluable.optimize {g : Graph} (h : IsEvaluable g) (options : OptimizationOptions) :
    (g.optimize options).notes = [] ∧ IsEvaluable (g.optimize options).value := by
  rcases h with hroot | ⟨s, hs, hshape⟩
  · rw [optimize_of_root_eq_none options hroot]
    exact ⟨rfl, .inl hroot⟩
  · obtain ⟨g', s', hrun, hs', hcontent⟩ := hs.optimize options
    rw [hrun]
    refine ⟨rfl, .inr ⟨s', hs', ?_⟩⟩
    rw [hcontent]
    exact (keepsShape_allowsRewriting.optimized options _).evaluation hshape

/-- Compilation keeps a query sound. -/
theorem compile_isSound {q : Query α} (hgraph : IsEvaluable q.graph)
    (herrors : AllExternal q.errors) : q.compile.IsSound := by
  have hholds : q.graph.root = none ∨ ∃ s, Holds q.graph s :=
    hgraph.imp id fun ⟨s, hs, _⟩ => ⟨s, hs⟩
  refine ⟨?_, ?_, compile_isCompiled hholds⟩
  · unfold Query.compile
    split
    · exact hgraph
    · exact hgraph
  · unfold Query.compile
    split
    · exact hgraph.compile
    · exact herrors

/-- What is made of lexemes can be evaluated, and the errors met on the way are
errors of meaning. -/
theorem evaluation_isEvaluable (known : Knowledge) (text : String) (ls : List Lexeme) :
    let draft := Draft.ofLexemes known text ls
    IsEvaluable draft.evaluation.value ∧ ∀ e ∈ draft.evaluation.notes, e.kind = .semantic := by
  intro draft
  rcases Draft.evaluation_cases known text ls with heq | ⟨v, hv, heq⟩
  · rw [heq]
    exact ⟨.inl rfl, by simp⟩
  · rw [heq]
    exact ⟨ofTree_isEvaluable hv.promote.enumerated, promote_semantic v⟩

/-- **What an engine makes of a text is sound**, whatever the text. -/
theorem parse_isSound (engine : Engine α) (text : String) (mode : Mode) :
    (engine.parse text mode).IsSound := by
  unfold Engine.parse
  split
  · next e hscan =>
      have herror := (Lexeme.scan_failsAtDelimiter hscan).isExternal
      refine ⟨.inl rfl, .singleton herror, fun hvalid => ?_⟩
      simp [isValid] at hvalid
  · next ls hscan =>
      have hdraft : AllExternal (Draft.ofLexemes engine.knowledge text ls).errors :=
        Draft.ofLexemes_externally engine.knowledge_isSemantic text ls
      obtain ⟨hgraph, hnotes⟩ := evaluation_isEvaluable engine.knowledge text ls
      exact compile_isSound hgraph (hdraft.append (.of_semantic hnotes))

/-- Optimization keeps a query sound. -/
theorem IsSound.optimize {q : Query α} (h : q.IsSound) (options : OptimizationOptions) :
    (q.optimize options).IsSound := by
  cases hvalid : q.isValid with
  | false =>
      rw [optimize_of_not_isValid hvalid]
      exact h
  | true =>
      obtain ⟨hnotes, hgraph⟩ := h.graph.optimize options
      rw [Query.optimize, if_pos hvalid]
      refine compile_isSound hgraph ?_
      rw [hnotes]
      exact .nil

/-- **Every query that a program can have is sound.** -/
theorem Reachable.isSound {q : Query α} (h : Reachable engine q) : q.IsSound := by
  induction h with
  | parsed text mode => exact parse_isSound engine text mode
  | optimized _ options ih => exact ih.optimize options
  | returning _ returnsPayload ih => exact ⟨ih.graph, ih.errors, ih.compiled⟩

/-- **Internal errors are out of reach.**  No query that a program can have has
an internal error, and its graph is valid: the graph compiles without one, and
no pass of an optimization fails. -/
theorem internal_errors_are_unreachable {q : Query α} (h : Reachable engine q) :
    (∀ e ∈ q.errors, e.kind ≠ .internal) ∧ q.graph.validate = [] ∧
      (∀ e ∈ (q.engine.compile q.graph).notes, e.kind ≠ .internal) ∧
      ∀ options, (q.graph.optimize options).notes = [] := by
  have hsound := h.isSound
  exact ⟨hsound.errors, hsound.graph.validate, hsound.graph.compile,
    fun options => (hsound.graph.optimize options).1⟩

/-- The query of `-(on:true on:false)` over a filter of booleans, optimized. -/
theorem internal_errors_of_an_optimized_query :
    let engine : Engine Bool := (({} : Engine Bool).addFilter (.ofGetter "on" id)).1
    let q := (engine.parse "-(on:true on:false)").optimize ⟨true, true⟩
    Reachable engine q ∧ q.isValid = true ∧ q.graph.validate = [] ∧
      (q.graph.optimize ⟨true, true⟩).notes = [] := by
  intro engine q
  have hq : Reachable engine q := .optimized (.parsed _ _) _
  obtain ⟨-, hvalidate, -, hnotes⟩ := internal_errors_are_unreachable hq
  exact ⟨hq, by decide +kernel, hvalidate, hnotes _⟩

end Query

end FilterQuery
