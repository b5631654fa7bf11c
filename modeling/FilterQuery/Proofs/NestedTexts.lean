import FilterQuery.Proofs.NestedCalls
import FilterQuery.Proofs.OptimizedGraphs

/-!
# Texts of nested queries

What an evaluation hands to the handler of nested queries is the text of a
nested query in the graph that is evaluated: filters with a plain value and
words resolve nothing, and a filter with a nested query resolves its own.
Parsing takes these texts from between braces of the text of the query, and
optimization moves them and adds none.  So each of them is shorter than the text
of the query by two bytes at least, whatever the engine, and however often the
query was optimized.
-/

namespace FilterQuery

open FilterQuery.Graph

variable {α : Type} {engine : Engine α}

section Conditions

/-- Any text of several, as long as the test of one hands over no query. -/
theorem nestedCalls_anyText {p : String → Noted (Call α) Bool}
    (hp : ∀ text, nestedCalls (p text).notes = []) (texts : List String) :
    nestedCalls (anyText p texts).notes = [] := by
  induction texts with
  | nil => rfl
  | cons text texts ih =>
      rw [anyText, Noted.notes_bind, nestedCalls_append, hp, List.nil_append]
      cases (p text).value with
      | true => rfl
      | false => exact ih

/-- To look for a word hands over no query. -/
theorem nestedCalls_fits (word : SearchExpression) (matcher : Option (String → String → Bool))
    (comparison : StringComparison) (text : String) :
    nestedCalls (word.fits matcher comparison text : Noted (Call α) Bool).notes = [] := by
  unfold SearchExpression.fits
  split
  · rfl
  · split <;> rfl

variable [BEq α]

/-- A word resolves nothing. -/
theorem nestedCalls_compileSearch (word : SearchExpression) (token : Token) (e : α) :
    nestedCalls ((engine.compileSearch word token).value.holds e).notes = [] := by
  unfold Engine.compileSearch
  cases engine.searchTexts with
  | none => rfl
  | some texts =>
      exact nestedCalls_anyText (nestedCalls_fits word engine.wordMatcher engine.comparison) _

/-- To compare a value hands over no query. -/
theorem nestedCalls_compare (reading : Reading α) (handler : Handler)
    (comparison : StringComparison) (value : Value) (e : α) :
    nestedCalls ((Condition.compare reading handler comparison value).holds e).notes = [] := by
  rw [Condition.holds, Noted.notes_bind, nestedCalls_append, (reading.value_eq e).2]
  cases (reading.value e).value <;> rfl

/-- A filter with a plain value resolves nothing. -/
theorem nestedCalls_compileFilter (f : FilterExpression) (token : Token) (e : α) :
    nestedCalls ((engine.compileFilter f token).value.holds e).notes = [] := by
  unfold Engine.compileFilter
  cases engine.findFilter? f.name with
  | none =>
      dsimp only
      split <;> rfl
  | some found =>
      dsimp only
      rw [Noted.value_bind]
      cases (engine.arguments found f token).value with
      | none => rfl
      | some args =>
          dsimp only
          split
          · rfl
          · cases found.filter.source with
            | decider decide => rfl
            | reader read =>
                dsimp only
                rw [Noted.value_bind]
                split
                · exact nestedCalls_compare ..
                · rfl

omit [BEq α] in
/-- The resolution of a block hands over the query of the block. -/
theorem query_of_resolutions {f : FilterExpression} {token : Token} {query : String} {e : α}
    {call : String × String} (h : call ∈ engine.resolutions f token query e) : call.1 = query := by
  unfold Engine.resolutions at h
  split at h
  · cases h
  · split at h
    · rw [List.mem_singleton.mp h]
    · split at h
      · cases h
      · rw [List.mem_singleton.mp h]

namespace Graph

/-- A nested query in the tree has this text. -/
def Mentions (t : Tree Content) (text : String) : Prop :=
  ∃ nested ∈ nestedQueriesOf t, nested.query = text

/-- A node mentions what is mentioned below it. -/
theorem Mentions.node {t : Tree Content} {text : String} (h : Mentions t text) {c : Content}
    {ts : List (Tree Content)} (ht : t ∈ ts) : Mentions (.node c ts) text := by
  obtain ⟨nested, hnested, htext⟩ := h
  refine ⟨nested, ?_, htext⟩
  rw [nestedQueriesOf_node]
  exact List.mem_append_right _ (List.mem_flatMap_of_mem ht hnested)

/-- A condition of two operands asks them, and nothing else. -/
theorem mem_nestedCalls_binary {kind : NodeKind} {token : Token} {a b : Tree Content}
    (hkind : kind.isBinaryCombinator = true) {e : α} {call : String × String}
    (h : call ∈ nestedCalls
      ((engine.conditionOf (.node ⟨kind, token⟩ [a, b])).value.holds e).notes) :
    call ∈ nestedCalls ((engine.conditionOf a).value.holds e).notes ∨
      call ∈ nestedCalls ((engine.conditionOf b).value.holds e).notes := by
  cases kind <;> cases hkind
  · rw [Engine.conditionOf_and, Noted.value_bind, Noted.value_bind, Noted.value_pure,
      Condition.holds, Noted.notes_bind, nestedCalls_append, List.mem_append] at h
    refine h.imp_right fun h => ?_
    split at h
    · exact h
    · cases h
  · rw [Engine.conditionOf_or, Noted.value_bind, Noted.value_bind, Noted.value_pure,
      Condition.holds, Noted.notes_bind, nestedCalls_append, List.mem_append] at h
    refine h.imp_right fun h => ?_
    split at h
    · cases h
    · exact h

/-- **A condition resolves nested queries of its tree only.** -/
theorem IsConditionTree.mentions {t : Tree Content} (h : IsConditionTree t)
    (howned : IsOwned none t) (hclean : (engine.conditionOf t).notes = []) (e : α) :
    ∀ call ∈ nestedCalls ((engine.conditionOf t).value.holds e).notes, Mentions t call.1 := by
  induction h with
  | @binary kind token a b hkind _ _ ihl ihr =>
      have hbelow := howned.operands (isBare_of_binary hkind)
      obtain ⟨ha, hb, -⟩ := conditionOf_binary hkind hclean
      intro call hcall
      rcases mem_nestedCalls_binary hkind hcall with hcall | hcall
      · exact (ihl (hbelow a (by simp)) ha call hcall).node (by simp)
      · exact (ihr (hbelow b (by simp)) hb call hcall).node (by simp)
  | not _ ih =>
      intro call hcall
      rw [Engine.conditionOf_not] at hclean
      rw [Engine.conditionOf_not, Noted.value_bind, Noted.value_pure, Condition.holds,
        Noted.notes_bind, Noted.notes_pure, List.append_nil] at hcall
      exact (ih (howned.operands rfl _ List.mem_cons_self)
        (List.append_eq_nil_iff.mp hclean).1 call hcall).node List.mem_cons_self
  | search s token =>
      intro call hcall
      have hword : engine.conditionOf (.leaf ⟨.search s, token⟩) = engine.compileSearch s token :=
        rfl
      rw [hword, nestedCalls_compileSearch] at hcall
      cases hcall
  | filter f token =>
      intro call hcall
      rw [Engine.conditionOf_filter, nestedCalls_compileFilter] at hcall
      cases hcall
  | nestedFilter f token hblock =>
      obtain ⟨-, hbelow⟩ := howned
      obtain ⟨nested, hnested, hcalls⟩ :=
        nestedCalls_of_nestedFilter hblock (hbelow _ List.mem_cons_self) hclean
      intro call hcall
      rw [hcalls] at hcall
      have hmentions : Mentions _ call.1 :=
        ⟨nested, hnested ▸ List.mem_cons_self, (query_of_resolutions hcall).symm⟩
      exact hmentions.node List.mem_cons_self
  | set hs => exact absurd hclean hs.conditionOf_ne

end Graph

end Conditions

section Plans

variable [BEq α] {p : Plan α}

/-- A selection asks its condition about each element of the payload. -/
theorem calls_select (c : Condition α) (mode : Mode) (payload : List α) :
    ((Plan.select c).run mode payload).calls = payload.flatMap fun e => (c.holds e).notes := by
  rw [Plan.run, Run.calls, List.filterMap_flatMap]
  refine List.flatMap_congr fun e _ => ?_
  refine (Run.calls_append _ _).trans ?_
  rw [Run.calls_ofCalls]
  cases mode <;> cases (c.holds e).value <;> exact List.append_nil _

/-- The test of a set expression resolves nested queries that are in it. -/
theorem Plan.IsSetExpression.nestedCalls_yields (h : p.IsSetExpression) (e : α) :
    nestedCalls (p.yields e).notes ⊆ p.nestedQueries := by
  obtain ⟨n, slots, t, hpulled⟩ := h.exists_pulled_test e
  have hcalls := hpulled.rest.1
  rw [p.rest_traversal] at hcalls
  exact ((nestedCalls_subperm hcalls).trans (h.nestedCalls_perm _ _).subperm).subset

omit [BEq α] in
/-- **Sets resolve nested queries of their tree only.** -/
theorem Graph.IsSetTree.mentions {t : Tree Content} (h : IsSetTree t) (howned : IsOwned none t)
    (hclean : (engine.planOf t).notes = []) :
    ∀ call ∈ (engine.planOf t).value.nestedQueries, Mentions t call.1 := by
  intro call hcall
  rw [h.nestedQueries_planOf howned hclean] at hcall
  obtain ⟨nested, hnested, rfl⟩ := List.mem_map.mp hcall
  exact ⟨nested, hnested, rfl⟩

/-- **A plan resolves nested queries of its tree only**, over a payload and in a
test. -/
theorem Graph.IsEvaluationTree.mentions {t : Tree Content} (h : IsEvaluationTree t)
    (howned : IsOwned none t) (hclean : (engine.planOf t).notes = []) :
    (∀ mode payload, ∀ call ∈ nestedCalls ((engine.planOf t).value.run mode payload).calls,
      Mentions t call.1) ∧
      ∀ e, ∀ call ∈ nestedCalls ((engine.planOf t).value.yields e).notes, Mentions t call.1 := by
  cases h with
  | set h =>
      have hexpression := h.isSetExpression hclean
      have hmentions := h.mentions howned hclean
      exact ⟨fun mode payload call hcall =>
          hmentions call ((hexpression.nestedCalls_perm mode payload).subset hcall),
        fun e call hcall => hmentions call (hexpression.nestedCalls_yields e hcall)⟩
  | @select token condition h =>
      rw [Engine.planOf_select] at hclean ⊢
      have hmentions : ∀ e, ∀ call ∈
          nestedCalls ((engine.conditionOf condition).value.holds e).notes,
          Mentions (.node ⟨.select, token⟩ [condition]) call.1 := fun e call hcall =>
        (h.mentions (howned.operands rfl _ List.mem_cons_self)
          (List.append_eq_nil_iff.mp hclean).1 e call hcall).node List.mem_cons_self
      refine ⟨fun mode payload call hcall => ?_, hmentions⟩
      rw [Noted.value_bind, Noted.value_pure, calls_select, nestedCalls, List.filterMap_flatMap,
        List.mem_flatMap] at hcall
      obtain ⟨e, -, hcall⟩ := hcall
      exact hmentions e call hcall

end Plans

namespace Graph

variable {text : String} {t : Tree Content}

/-- The nested queries in the tree are shorter than the text, by their braces at
least. -/
def NestsShorter (text : String) (t : Tree Content) : Prop :=
  ∀ nested ∈ nestedQueriesOf t, nested.query.utf8ByteSize + 2 ≤ text.utf8ByteSize

/-- Nested queries are among the statements of a tree. -/
theorem nestedQueriesOf_eq (t : Tree Content) :
    nestedQueriesOf t = (statements t).filterMap (·.kind.nestedQuery?) := by
  rw [statements, List.filterMap_filter, nestedQueriesOf]
  congr 1
  funext c
  cases c.kind <;> rfl

/-- Optimization keeps the nested queries short, for it only moves the
leaves. -/
theorem NestsShorter.optimized (h : NestsShorter text t) (options : OptimizationOptions) :
    NestsShorter text (Graph.optimized options t) := by
  have hperm := (statements_allowsRewriting.optimized options t).filterMap (·.kind.nestedQuery?)
  rw [← nestedQueriesOf_eq, ← nestedQueriesOf_eq] at hperm
  exact fun nested hnested => h nested (hperm.mem_iff.mpr hnested)

end Graph

/-- What a parsed query evaluates has been written in the text. -/
theorem Engine.Evaluates.nestsShorter {text : String} {mode : Mode} {ls : List Lexeme}
    {t : Tree Content} (h : engine.Evaluates text mode ls t) :
    NestsShorter text (enumerated (promote t).value) := by
  intro nested hnested
  obtain ⟨c, hc, hsome⟩ := List.mem_filterMap.mp hnested
  have hkind : c.kind = .nestedQuery nested := by
    generalize c.kind = kind at hsome ⊢
    cases kind <;> cases hsome
    rfl
  have hpayload : c.kind.isPayload = true := by rw [hkind]; rfl
  obtain ⟨hwritten, -⟩ := Draft.payload_of_prune h.errors h.pruned hc hpayload
  exact Lexeme.nests_size h.scan ⟨c, hwritten, hkind⟩

namespace Query

variable [BEq α] {q : Query α} {u : Tree Place}

/-- A valid query resolves nested queries of the tree in its graph only. -/
theorem EvaluatesTree.mentions (h : EvaluatesTree engine q u) :
    (∀ payload, ∀ call ∈ nestedCalls (q.aligned payload).calls,
      Mentions (u.map Place.content) call.1) ∧
      ∀ e, ∀ call ∈ nestedCalls (q.test e).notes, Mentions (u.map Place.content) call.1 := by
  obtain ⟨hrun, hyields⟩ := h.shape.mentions h.owned h.clean
  have haligned : ∀ payload, q.aligned payload =
      (engine.planOf (u.map Place.content)).value.run q.mode payload := by
    intro payload
    rw [aligned, h.plan]
  simp only [haligned, test_of_activePlan h.plan]
  exact ⟨hrun q.mode, hyields⟩

/-- **Nested queries are handed over without the braces around them**, and so
each of them is shorter than the text of the query that resolves it. -/
theorem Reachable.nestedCalls_shorter (h : Reachable engine q) :
    (∀ payload, ∀ call ∈ nestedCalls (q.aligned payload).calls,
      call.1.utf8ByteSize + 2 ≤ q.text.utf8ByteSize) ∧
      ∀ e, ∀ call ∈ nestedCalls (q.test e).notes,
        call.1.utf8ByteSize + 2 ≤ q.text.utf8ByteSize := by
  cases hvalid : q.isValid with
  | true =>
      obtain ⟨u, hu⟩ := h.exists_tree hvalid
      obtain ⟨s, hs, hshorter⟩ := h.tree_has Engine.Evaluates.nestsShorter
        (fun options hshorter => hshorter.optimized options) hvalid
      have hcontent : u.map Place.content = s.map Spot.content := by
        obtain ⟨v, hv, rfl⟩ := hs.exists_tree
        obtain rfl := Option.some.inj (hv.symm.trans hu.tree)
        rw [Tree.map_map]
        rfl
      have hsize : ∀ text, Mentions (u.map Place.content) text →
          text.utf8ByteSize + 2 ≤ q.text.utf8ByteSize := by
        rintro text ⟨nested, hnested, rfl⟩
        exact hshorter nested (hcontent ▸ hnested)
      obtain ⟨haligned, htest⟩ := hu.mentions
      exact ⟨fun payload call hcall => hsize _ (haligned payload call hcall),
        fun e call hcall => hsize _ (htest e call hcall)⟩
  | false =>
      -- There is no plan, and so no call is made.
      have hplan : q.activePlan? = none := by simp [activePlan?, hvalid]
      constructor
      · intro payload call hcall
        rw [aligned, hplan] at hcall
        dsimp only at hcall
        split at hcall
        · rw [Run.calls_ofElements] at hcall
          cases hcall
        · cases hcall
      · intro e call hcall
        rw [test, hplan] at hcall
        cases hcall

end Query

end FilterQuery
