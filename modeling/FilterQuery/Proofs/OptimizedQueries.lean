import FilterQuery.Query
import FilterQuery.Proofs.Lowering
import FilterQuery.Proofs.Optimizing
import FilterQuery.Proofs.Rewriting

/-!
# Optimized queries

An optimized query means what the query means: a pass leaves a graph that holds
a tree with a graph that holds another tree, which may stand for the first one.
So an optimized query compiles without an error if the query did, to a plan that
yields the same slots and passes the same test, however often it has been
optimized.
-/

namespace FilterQuery

open FilterQuery.Graph

variable {α : Type} [BEq α] {engine : Engine α}

namespace Graph

/-- The graph holds a tree that may stand for this one. -/
def HoldsFor (engine : Engine α) (g : Graph) (t : Tree Content) : Prop :=
  ∃ s, Holds g s ∧ StandsFor engine t (s.map Spot.content)

/-- **Optimization reports nothing and keeps what the graph stands for.** -/
theorem optimize_holdsFor (options : OptimizationOptions) {g : Graph} {t : Tree Content}
    (h : HoldsFor engine g t) :
    (g.optimize options).notes = [] ∧ HoldsFor engine (g.optimize options).value t := by
  obtain ⟨s, hs, hst⟩ := h
  obtain ⟨g', s', hrun, hs', hcontent⟩ := hs.optimize options
  rw [hrun]
  refine ⟨rfl, s', hs', ?_⟩
  rw [hcontent]
  exact hst.trans (StandsFor.allowsRewriting.optimized options _)

end Graph

omit [BEq α] in
/-- A graph that holds a tree compiles to the plan of the tree. -/
theorem Graph.Holds.compile {g : Graph} {s : Tree Spot} (hs : Holds g s) :
    engine.compile g = ⟨some (engine.planOf (s.map Spot.content)).value,
      (engine.planOf (s.map Spot.content)).notes⟩ := by
  obtain ⟨u, hu, rfl⟩ := hs.exists_tree
  have hcontent : (u.map Place.spot).map Spot.content = u.map Place.content := by
    rw [Tree.map_map]
    rfl
  have hmap : ∀ x : Engine.Compiled (Plan α), some <$> x = ⟨some x.value, x.notes ++ []⟩ :=
    fun _ => rfl
  rw [Engine.compile, hu, hcontent, ← (Engine.compile_eq u).2]
  dsimp only
  rw [hmap, List.append_nil]

/-- A graph that is evaluated is empty, or holds a tree. -/
theorem Draft.evaluation_holds (d : Draft) :
    d.evaluation.value.root = none ∨ ∃ s, Holds d.evaluation.value s := by
  unfold Draft.evaluation
  split
  · exact .inl rfl
  · unfold Graph.evaluation
    split
    · exact .inl rfl
    · next t _ =>
        obtain ⟨s, -, hs, -⟩ := ofTree_holds (enumerated (promote t).value)
        exact .inr ⟨s, hs⟩

namespace Query

/-- What a query means apart from the reports of its calls: the errors, the
slots that it yields for a payload, and the test of an element. -/
structure SameMeaning (q q' : Query α) : Prop where
  errors : q'.errors = q.errors
  isValid : q'.isValid = q.isValid
  aligned : ∀ payload, (q'.aligned payload).slots = (q.aligned payload).slots
  test : ∀ e, (q'.test e).value = (q.test e).value

theorem SameMeaning.refl (q : Query α) : SameMeaning q q := ⟨rfl, rfl, fun _ => rfl, fun _ => rfl⟩

/-- Two steps that keep the meaning keep it together. -/
theorem SameMeaning.trans {q q' q'' : Query α} (h : SameMeaning q q') (h' : SameMeaning q' q'') :
    SameMeaning q q'' where
  errors := h'.errors.trans h.errors
  isValid := h'.isValid.trans h.isValid
  aligned payload := (h'.aligned payload).trans (h.aligned payload)
  test e := (h'.test e).trans (h.test e)

/-- The results are the elements of the slots. -/
theorem results_eq (q : Query α) (payload : List α) :
    q.results payload = (q.aligned payload).elements := by
  rw [results, apply, Run.elements_withoutEmpty]

/-- Queries of the same meaning have the same results. -/
theorem SameMeaning.results {q q' : Query α} (h : SameMeaning q q') (payload : List α) :
    q'.results payload = q.results payload := by
  rw [results_eq, results_eq, Run.elements_eq, Run.elements_eq, h.aligned]

/-- The plan of a valid query is the one that its graph compiles to, without an
error. -/
def IsCompiled (q : Query α) : Prop :=
  q.isValid = true → ∃ s, Holds q.graph s ∧
    (q.engine.planOf (s.map Spot.content)).notes = [] ∧
    q.plan = some (q.engine.planOf (s.map Spot.content)).value

omit [BEq α] in
/-- A query that is compiled has the plan of its graph, if it is valid at
all. -/
theorem compile_isCompiled {q : Query α} (h : q.graph.root = none ∨ ∃ s, Holds q.graph s) :
    q.compile.IsCompiled := by
  intro hvalid
  unfold compile at hvalid ⊢
  cases herrors : q.errors.isEmpty with
  | false =>
      rw [herrors, if_neg (by simp)] at hvalid
      simp [isValid, herrors] at hvalid
  | true =>
      rw [herrors, if_pos rfl] at hvalid
      rw [if_pos rfl]
      simp only [isValid, Bool.and_eq_true, Graph.isEmpty] at hvalid
      rcases h with hroot | ⟨s, hs⟩
      · simp [hroot] at hvalid
      · rw [hs.compile] at hvalid ⊢
        exact ⟨s, hs, by simpa using hvalid.1, rfl⟩

omit [BEq α] in
/-- An invalid query is not optimized. -/
theorem optimize_of_not_isValid {q : Query α} (h : q.isValid = false)
    (options : OptimizationOptions) :
    q.optimize options = q := by
  rw [optimize, h, if_neg (by simp)]

/-- The optimized query has the plan of a tree that may stand for that of the
query. -/
theorem optimize_of_isValid {q : Query α} (h : q.IsCompiled) (hvalid : q.isValid = true)
    (options : OptimizationOptions) :
    ∃ g s plan plan', Holds g s ∧ q.plan = some plan ∧ plan.Agrees plan' ∧
      (q.engine.planOf (s.map Spot.content)).notes = [] ∧
      (q.engine.planOf (s.map Spot.content)).value = plan' ∧
      q.optimize options = { q with graph := g, errors := [], plan := some plan' } := by
  obtain ⟨s, hs, hclean, hplan⟩ := h hvalid
  have hholds : HoldsFor q.engine q.graph (s.map Spot.content) := ⟨s, hs, .refl _⟩
  obtain ⟨hnotes, s', hs', hstands⟩ := optimize_holdsFor options hholds
  obtain ⟨hclean', hagrees⟩ := hstands.plan hclean
  refine ⟨_, s', _, _, hs', hplan, hagrees, hclean', rfl, ?_⟩
  rw [optimize, if_pos hvalid, compile, hnotes]
  simp only [List.isEmpty_nil, if_true, hs'.compile, hclean']

/-- **One optimization keeps the meaning.** -/
theorem optimize_sameMeaning {q : Query α} (h : q.IsCompiled) (options : OptimizationOptions) :
    SameMeaning q (q.optimize options) ∧ (q.optimize options).IsCompiled := by
  cases hvalid : q.isValid with
  | false =>
      rw [optimize_of_not_isValid hvalid]
      exact ⟨.refl q, h⟩
  | true =>
      obtain ⟨g, s, plan, plan', hs, hplan, hagrees, hclean, hplan', hoptimized⟩ :=
        optimize_of_isValid h hvalid options
      have herrors : q.errors = [] := by
        rw [isValid, Bool.and_eq_true] at hvalid
        exact List.isEmpty_iff.mp hvalid.1
      have hvalid' : (q.optimize options).isValid = true := by
        rw [hoptimized]
        simp [isValid, Graph.isEmpty, hs.root]
      have hactive : q.activePlan? = some plan := by
        rw [activePlan?, if_pos hvalid, hplan]
      have hactive' : (q.optimize options).activePlan? = some plan' := by
        rw [activePlan?, if_pos hvalid', hoptimized]
      refine ⟨⟨?_, hvalid'.trans hvalid.symm, fun payload => ?_, fun e => ?_⟩, fun _ => ?_⟩
      · rw [hoptimized, herrors]
      · have hmode : (q.optimize options).mode = q.mode := by rw [hoptimized]
        simp only [aligned, hactive, hactive', hmode]
        exact hagrees.slots q.mode payload
      · simp only [test, hactive, hactive']
        exact hagrees.yields e
      · rw [hoptimized]
        exact ⟨s, hs, hclean, by rw [hplan']⟩

/-- Optimizations one behind another keep the meaning. -/
theorem optimizeAll_sameMeaning {q : Query α} (h : q.IsCompiled)
    (options : List OptimizationOptions) : SameMeaning q (options.foldl optimize q) := by
  induction options generalizing q with
  | nil => exact .refl q
  | cons first rest ih =>
      obtain ⟨hsame, hcompiled⟩ := optimize_sameMeaning h first
      exact hsame.trans (ih hcompiled)

end Query

omit [BEq α] in
/-- A parsed query has the plan of its graph, if it is valid. -/
theorem Engine.parse_isCompiled (engine : Engine α) (text : String) (mode : Mode) :
    (engine.parse text mode).IsCompiled := by
  unfold Engine.parse
  split
  · intro hvalid
    simp [Query.isValid] at hvalid
  · exact Query.compile_isCompiled (Draft.evaluation_holds _)

/-- **Optimization never changes what a query means.**  However often a query is
optimized, with whatever options, its errors stay the same, it is valid exactly
if it was, it yields the same slots and the same elements for every payload, and
every element passes its test exactly if it did. -/
theorem optimization_keeps_meaning (engine : Engine α) (text : String) (mode : Mode)
    (returnsPayload : Bool) (options : List OptimizationOptions) :
    let q : Query α := { engine.parse text mode with returnsPayload }
    let q' := options.foldl Query.optimize q
    q'.errors = q.errors ∧ q'.isValid = q.isValid ∧
      (∀ payload, (q'.aligned payload).slots = (q.aligned payload).slots) ∧
      (∀ payload, q'.results payload = q.results payload) ∧
      ∀ e, (q'.test e).value = (q.test e).value := by
  intro q q'
  have hcompiled : q.IsCompiled := engine.parse_isCompiled text mode
  have hsame : q.SameMeaning q' := Query.optimizeAll_sameMeaning hcompiled options
  exact ⟨hsame.errors, hsame.isValid, hsame.aligned, hsame.results, hsame.test⟩

end FilterQuery
