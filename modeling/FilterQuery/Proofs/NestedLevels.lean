import FilterQuery.Proofs.NestedRecords
import FilterQuery.Proofs.NestedTexts

/-!
# Levels of nested queries

Over records the handler of nested queries evaluates what it is handed by an
engine whose handler it is itself.  This goes on as long as there are nested
queries in nested ones; but what is handed over gets shorter from level to level
by the braces around it, so that half as many levels are enough as the text has
bytes.  Hence there is one such handler and no other, and a check gives what
comes out with it: the depth that its engine is made for cuts nothing off.
-/

namespace FilterQuery

open FilterQuery.Graph

section Engines

variable {α : Type} {engine : Engine α}

namespace Engine

/-- What is wrong with a filter does not depend on the plan of its nested
query. -/
theorem compileNestedFilter_notes_eq (f : FilterExpression) (token : Token)
    {source source' : Compiled (Plan α)} (h : source.notes = source'.notes) :
    (engine.compileNestedFilter f token source).notes =
      (engine.compileNestedFilter f token source').notes := by
  unfold compileNestedFilter
  cases engine.findFilter? f.name with
  | none => rfl
  | some found =>
      dsimp only
      cases found.filter.nested with
      | none => rfl
      | some transform =>
          dsimp only
          rw [Noted.notes_bind, Noted.notes_bind]
          cases (engine.arguments found f token).value with
          | none => rfl
          | some args =>
              dsimp only
              rw [Noted.notes_bind, Noted.notes_bind, h]
              cases found.filter.source with
              | decider decide => rfl
              | reader read =>
                  dsimp only
                  cases (engine.operators.find? f.operator).bind
                    (·.resolve? found.filter.type transform.type) <;> rfl

section Handlers

variable (handler handler' : String → String → List α)

/-- **What is wrong with a tree does not depend on what nested queries
yield.** -/
theorem resolving_sameNotes (t : Tree Content) :
    ((engine.resolving handler).planOf t).notes =
      ((engine.resolving handler').planOf t).notes := by
  have hkeeps : KeepsCompiling (fun _ => True) (engine.resolving handler)
      (engine.resolving handler') fun _ x x' => x.notes = x'.notes :=
    { one := fun g _ _ h => by simp only [Noted.notes_bind, Noted.notes_pure, h]
      pair := fun g _ _ _ _ h h' => by simp only [Noted.notes_bind, Noted.notes_pure, h, h']
      failing := fun _ _ _ _ => rfl
      filter := fun _ _ _ => rfl
      nestedFilter := fun f token _ _ _ h =>
        (engine.resolving handler).compileNestedFilter_notes_eq f token h
      search := fun _ _ _ => rfl
      nestedQuery := fun _ _ _ => rfl
      aggregators := rfl }
  exact (hkeeps.contents t fun _ _ => trivial).2

/-- **The errors of a query do not depend on what nested queries yield**, for
the compilation is all that could tell. -/
theorem parse_resolving_errors (text : String) (mode : Mode) :
    ((engine.resolving handler).parse text mode).errors =
      ((engine.resolving handler').parse text mode).errors := by
  have hcompile : ∀ g, ((engine.resolving handler).compile g).notes =
      ((engine.resolving handler').compile g).notes := by
    intro g
    unfold compile
    cases g.tree? with
    | none => rfl
    | some t =>
        have hplan : ((engine.resolving handler).compilePlan t).notes =
            ((engine.resolving handler').compilePlan t).notes := by
          rw [(compile_eq t).2, (compile_eq t).2]
          exact resolving_sameNotes handler handler' (t.map Place.content)
        exact congrArg (· ++ []) hplan
  have hknown : (engine.resolving handler).knowledge = (engine.resolving handler').knowledge := rfl
  have halphabet : (engine.resolving handler).alphabet = (engine.resolving handler').alphabet := rfl
  rw [parse, parse, hknown, halphabet]
  split
  · rfl
  · unfold Query.compile
    dsimp only
    split
    · exact hcompile _
    · rfl

end Handlers

variable [BEq α]

/-- The calls come to an end within a number of levels, if each is answered by
an evaluation of the query that it hands over: the calls that this makes are
those of the next level. -/
inductive EndsWithin (engine : Engine α) (payload : List α) :
    (levels : Nat) → (calls : List (String × String)) → Prop
  | none (levels : Nat) : EndsWithin engine payload levels []
  | next {levels : Nat} {calls : List (String × String)}
      (h : ∀ call ∈ calls, EndsWithin engine payload levels
        (nestedCalls ((engine.parse call.1).aligned payload).calls)) :
      EndsWithin engine payload (levels + 1) calls

/-- Each level takes two bytes at least. -/
theorem endsWithin_of_size (payload : List α) {levels : Nat} {calls : List (String × String)}
    (h : ∀ call ∈ calls, call.1.utf8ByteSize / 2 < levels) :
    engine.EndsWithin payload levels calls := by
  induction levels generalizing calls with
  | zero =>
      obtain rfl : calls = [] := List.eq_nil_iff_forall_not_mem.mpr fun call hcall =>
        absurd (h call hcall) (Nat.not_lt_zero _)
      exact .none 0
  | succ levels ih =>
      refine .next fun call hcall => ih fun inner hinner => ?_
      have hparsed : Query.Reachable engine (engine.parse call.1) := .parsed _ _
      have hsize := hparsed.nestedCalls_shorter.1 payload inner hinner
      have hlevels := h call hcall
      rw [Query.parse_text] at hsize
      omega

end Engine

/-- The nested queries of a reachable query come to an end within half as many
levels as its text has bytes. -/
theorem Query.Reachable.endsWithin [BEq α] {q : Query α} (h : Reachable engine q)
    (payload payload' : List α) : engine.EndsWithin payload (q.text.utf8ByteSize / 2)
      (nestedCalls (q.aligned payload').calls) := by
  refine Engine.endsWithin_of_size payload fun call hcall => ?_
  have hsize := h.nestedCalls_shorter.1 payload' call hcall
  omega

end Engines

namespace Records

/-- The handler that evaluates what it is handed over the records, and answers
what is nested in it by itself. -/
def IsResolver (records : Records) (orderBy : Option String)
    (resolve : String → String → List records.Element) : Prop :=
  ∀ query filter, resolve query filter =
    (((records.flatEngine orderBy).resolving resolve).parse query).results records.elements

variable {records : Records} {orderBy : Option String}
  {resolve : String → String → List records.Element}

/-- Handlers with the same answers to whatever is shorter by a pair of braces
give a query the same results. -/
theorem results_resolving_eq {handler handler' : String → String → List records.Element}
    {query : String} (hnested : ∀ inner filter, inner.utf8ByteSize + 2 ≤ query.utf8ByteSize →
      handler' inner filter = handler inner filter) :
    (((records.flatEngine orderBy).resolving handler').parse query).results records.elements =
      (((records.flatEngine orderBy).resolving handler).parse query).results records.elements :=
  (Engine.sameAnswers_of_shorter (Alike.refl View.SameSense.refl _) .strict hnested).results _

/-- Any depth beyond the length of a query is enough for it. -/
theorem IsResolver.eq_nestedResults (h : records.IsResolver orderBy resolve) {depth : Nat}
    {query : String} (hdepth : query.utf8ByteSize < depth) (filter : String) :
    resolve query filter = records.nestedResults orderBy depth query filter := by
  induction depth generalizing query filter with
  | zero => exact absurd hdepth (Nat.not_lt_zero _)
  | succ depth ih =>
      rw [h query filter, nestedResults, engine_eq_resolving]
      exact results_resolving_eq fun inner filter hsize => ih (by omega) filter

/-- There is a handler that answers what is nested in its queries by itself: for
each query, evaluation at the depth of its length. -/
theorem exists_isResolver : ∃ resolve, records.IsResolver orderBy resolve := by
  refine ⟨fun query filter => records.nestedResults orderBy (query.utf8ByteSize + 1) query filter,
    fun query filter => ?_⟩
  dsimp only
  rw [nestedResults, engine_eq_resolving]
  refine results_resolving_eq fun inner filter hsize => ?_
  exact nestedResults_of_depth (Nat.lt_succ_self _) (by omega) filter

end Records

namespace Check

/-- The query of a check over records, where a function answers the nested
queries. -/
def asked (c : Check) (records : Records) (resolve : String → String → List records.Element) :
    Query records.Element :=
  let query := ((records.flatEngine c.orderBy).resolving resolve).parse c.query c.mode
  if c.optimized then query.optimize { propagateNot := true, swapNotToRight := true } else query

/-- What comes out of a query over records. -/
def outcome (records : Records) (query : Query records.Element) : Except Failure Outcome :=
  if query.errors.isEmpty then
    let slots := (query.aligned records.elements).slots
    .ok (.records (slots.map fun slot => (slot.map records.record).getD .null))
  else .error (.query query.errors)

/-- The check comes to this result, and its nested queries come to an end within
a number of levels. -/
inductive Returns (c : Check) (levels : Nat) : Except Failure Outcome → Prop
  | form (hform : c.syntaxOnly = true) : Returns c levels c.runSyntax
  | noInput (hform : c.syntaxOnly = false) (hinput : c.input = none) :
      Returns c levels (.error .noInput)
  | malformedInput {text : String} (hform : c.syntaxOnly = false) (hinput : c.input = some text)
      (hdata : Json.parse? text = none) : Returns c levels (.error .malformedInput)
  | answer {text : String} {data : Json} {records : Records}
      {resolve : String → String → List records.Element} (hform : c.syntaxOnly = false)
      (hinput : c.input = some text) (hdata : Json.parse? text = some data)
      (hrecords : Records.ofJson data = records) (hresolve : records.IsResolver c.orderBy resolve)
      (hends : ((records.flatEngine c.orderBy).resolving resolve).EndsWithin records.elements levels
        (nestedCalls ((c.asked records resolve).aligned records.elements).calls)) :
      Returns c levels (outcome records (c.asked records resolve))

variable {c : Check} {records : Records} {resolve : String → String → List records.Element}

/-- What a check asks is a query that a program can come by. -/
theorem asked_reachable (c : Check) (resolve : String → String → List records.Element) :
    Query.Reachable ((records.flatEngine c.orderBy).resolving resolve)
      (c.asked records resolve) := by
  unfold asked
  dsimp only
  split
  · exact .optimized (.parsed _ _) _
  · exact .parsed _ _

/-- What a check asks has the text of the check, optimized or not. -/
theorem asked_text (c : Check) (resolve : String → String → List records.Element) :
    (c.asked records resolve).text = c.query := by
  unfold asked
  dsimp only
  split
  · rw [(Query.optimize_frame (Engine.parse_isCompiled _ _ _) _).1, Query.parse_text]
  · rw [Query.parse_text]

/-- The outcome depends on the errors and the slots alone. -/
theorem outcome_congr {q q' : Query records.Element} (herrors : q.errors = q'.errors)
    (hslots : (q.aligned records.elements).slots = (q'.aligned records.elements).slots) :
    outcome records q = outcome records q' := by
  rw [outcome, outcome, herrors, hslots]

/-- What comes out is the same for the query as it was parsed. -/
theorem outcome_asked (c : Check) (resolve : String → String → List records.Element) :
    outcome records (c.asked records resolve) = outcome records
      (((records.flatEngine c.orderBy).resolving resolve).parse c.query c.mode) := by
  have hcompiled := Engine.parse_isCompiled ((records.flatEngine c.orderBy).resolving resolve)
    c.query c.mode
  unfold asked
  dsimp only
  split
  · obtain ⟨hsame, -⟩ := Query.optimize_sameMeaning hcompiled _
    exact outcome_congr hsame.errors (hsame.aligned _)
  · rfl

/-- **The depth of the engine for a check cuts nothing off.** -/
theorem runOver_eq_outcome (h : records.IsResolver c.orderBy resolve) :
    c.runOver records = outcome records (c.asked records resolve) := by
  let depth := records.nestedResults c.orderBy c.query.utf8ByteSize
  have hrun : c.runOver records = outcome records (c.asked records depth) := by
    unfold runOver asked
    rw [Records.parse, Records.engine_eq_resolving]
    rfl
  have hnested : ∀ query filter, query.utf8ByteSize + 2 ≤ c.query.utf8ByteSize →
      depth query filter = resolve query filter := fun query filter hsize =>
    (h.eq_nestedResults (by omega) filter).symm
  have hanswers : (((records.flatEngine c.orderBy).resolving resolve).parse c.query
      c.mode).SameAnswers (((records.flatEngine c.orderBy).resolving depth).parse c.query c.mode) :=
    Engine.sameAnswers_of_shorter (Alike.refl View.SameSense.refl _) c.mode hnested
  rw [hrun, outcome_asked, outcome_asked]
  exact outcome_congr (Engine.parse_resolving_errors _ _ _ _) (hanswers.slots _)

/-- A check of the form alone does not look at the records. -/
theorem run_of_form (hform : c.syntaxOnly = true) : c.run = c.runSyntax := if_pos hform

/-- A check without input fails for that. -/
theorem run_of_noInput (hform : c.syntaxOnly = false) (hinput : c.input = none) :
    c.run = .error .noInput := by
  rw [run, hform, if_neg Bool.false_ne_true, hinput]

/-- A check whose input is no document fails for that. -/
theorem run_of_malformedInput {text : String} (hform : c.syntaxOnly = false)
    (hinput : c.input = some text) (hdata : Json.parse? text = none) :
    c.run = .error .malformedInput := by
  rw [run, hform, if_neg Bool.false_ne_true, hinput]
  dsimp only
  rw [hdata]

/-- There is one result that a check comes to, and it is the one that is
given. -/
theorem Returns.eq_run {levels : Nat} {result : Except Failure Outcome}
    (h : c.Returns levels result) : result = c.run := by
  cases h with
  | form hform => exact (run_of_form hform).symm
  | noInput hform hinput => exact (run_of_noInput hform hinput).symm
  | malformedInput hform hinput hdata => exact (run_of_malformedInput hform hinput hdata).symm
  | answer hform hinput hdata hrecords hresolve hends =>
      subst hrecords
      rw [run_of_data hform hinput hdata, runOver_eq_outcome hresolve]

/-- **A check comes to its result**, within half as many levels as its query has
bytes. -/
theorem returns_run (c : Check) : c.Returns (c.query.utf8ByteSize / 2) c.run := by
  cases hform : c.syntaxOnly with
  | true => exact run_of_form hform ▸ .form hform
  | false =>
      cases hinput : c.input with
      | none => exact run_of_noInput hform hinput ▸ .noInput hform hinput
      | some text =>
          cases hdata : Json.parse? text with
          | none =>
              exact run_of_malformedInput hform hinput hdata ▸ .malformedInput hform hinput hdata
          | some data =>
              let records := Records.ofJson data
              obtain ⟨resolve, hresolve⟩ : ∃ resolve, records.IsResolver c.orderBy resolve :=
                Records.exists_isResolver
              have hends := (c.asked_reachable resolve).endsWithin records.elements records.elements
              rw [asked_text] at hends
              rw [run_of_data hform hinput hdata, runOver_eq_outcome hresolve]
              exact .answer hform hinput hdata rfl hresolve hends

/-- **The evaluation of nested queries ends.**  A nested query in a text is
shorter than the text by two bytes at least, wherever it stands; and what is
handed over to the handler in the evaluation of a query or in a test, by any
engine, is shorter than the text of the query by as many.  So over records there
is just one handler that evaluates nested queries as the check evaluates its
query; and a check always comes to a result, which is the one that it gives,
with no more levels of nested queries than half as many as there are bytes in
its query. -/
theorem nested_evaluation_ends :
    (∀ alphabet text ls nested, Lexeme.scan alphabet text = .ok ls → Lexeme.Nests ls nested →
      nested.query.utf8ByteSize + 2 ≤ text.utf8ByteSize) ∧
      (∀ {α : Type} [BEq α] {engine : Engine α} {q : Query α}, Query.Reachable engine q →
        (∀ payload, ∀ call ∈ nestedCalls (q.aligned payload).calls,
          call.1.utf8ByteSize + 2 ≤ q.text.utf8ByteSize) ∧
        ∀ e, ∀ call ∈ nestedCalls (q.test e).notes,
          call.1.utf8ByteSize + 2 ≤ q.text.utf8ByteSize) ∧
      (∀ (records : Records) (orderBy : Option String),
        ∃! resolve, records.IsResolver orderBy resolve) ∧
      ∀ (c : Check) (result : Except Failure Outcome),
        c.Returns (c.query.utf8ByteSize / 2) result ↔ result = c.run := by
  refine ⟨fun _ _ _ _ => Lexeme.nests_size, fun h => h.nestedCalls_shorter,
    fun records orderBy => ?_, fun c result => ⟨fun h => h.eq_run, fun h => h ▸ c.returns_run⟩⟩
  obtain ⟨resolve, hresolve⟩ : ∃ resolve, records.IsResolver orderBy resolve :=
    Records.exists_isResolver
  refine ⟨resolve, hresolve, fun resolve' hresolve' => ?_⟩
  funext query filter
  rw [hresolve.eq_nestedResults (Nat.lt_succ_self _),
    hresolve'.eq_nestedResults (Nat.lt_succ_self _)]

/-- `{a={a>1}}` hands over `a={a>1}`, and this hands over `a>1`: two levels, of
at most four. -/
theorem nested_evaluation_of_two_levels :
    let engine : Engine Bool := { nestedHandler := some fun _ _ => [true] }
    let q := engine.parse "\x7byes\x7d"
    let input := "[\x7b\"a\":1\x7d,\x7b\"a\":2\x7d]"
    let found : Outcome := .records [.object [("a", .number (.integer 2))]]
    let c : Check := { query := Text.braced "a=\x7ba>1\x7d", input := some input }
    nestedCalls (q.aligned []).calls = [("yes", "")] ∧
      "yes".utf8ByteSize + 2 ≤ q.text.utf8ByteSize ∧ c.Returns 4 (.ok found) := by
  intro engine q input found c
  obtain ⟨-, hshorter, -, hreturns⟩ := nested_evaluation_ends
  have hq : Query.Reachable engine q := .parsed _ _
  have hcalls : nestedCalls (q.aligned []).calls = [("yes", "")] := by decide +kernel
  have hlevels : c.query.utf8ByteSize / 2 = 4 := by decide +kernel
  refine ⟨hcalls, (hshorter hq).1 [] ("yes", "") (hcalls ▸ List.mem_cons_self),
    hlevels ▸ (hreturns c (.ok found)).mpr ?_⟩
  let data : Json := .array [.object [("a", .number (.integer 1))],
    .object [("a", .number (.integer 2))]]
  let records := Records.ofJson data
  have hdata : Json.parse? input = some data := by cbv
  have hclean : (records.parse none c.query .strict).errors = [] := by decide +kernel
  have hresults : (records.parse none c.query .strict).results records.elements =
      [⟨1, by decide⟩] := by decide +kernel
  have hrun : c.run = c.runOver records := run_of_data rfl rfl hdata
  rw [hrun, runOver_of_clean hclean, hresults]
  rfl

end Check

end FilterQuery
