import FilterQuery.Proofs.Paraphrases
import FilterQuery.Proofs.RecordEngines
import FilterQuery.Proofs.SetExpressions
import FilterQuery.Proofs.SyntaxErrors
import FilterQuery.Records.Check

/-!
# Nested queries over records

A nested query over records runs over the same records as the query that it
stands in, with one engine for each depth.  It is shorter than that query, so
that engines at any depths that are enough for a text give the same answers.
Hence a query in braces yields what the query yields by itself.  Only errors are
lost: nothing is said about what is wrong with a nested query, and one with
errors yields all the records.
-/

namespace FilterQuery

open FilterQuery.Graph Grammar

namespace Engine

variable {α : Type} [BEq α] {engine : Engine α} (handler : String → String → List α)
  {text : String} {block : NestedBlock} (mode : Mode)

/-- A text that is one nested query yields what the query does, without an
error. -/
theorem parse_of_nested (hscan : Lexeme.scan engine.alphabet text = .ok [.nested block])
    (haggregator : block.aggregator = none) :
    ((engine.resolving handler).parse text mode).errors = [] ∧
      ∀ payload, (((engine.resolving handler).parse text mode).aligned payload).slots =
        (handler block.query "").map some := by
  let q : Content := ⟨.nestedQuery { query := block.query, filter := none }, block.token⟩
  let known := (engine.resolving handler).knowledge
  replace hscan : Lexeme.scan (engine.resolving handler).alphabet text = .ok [.nested block] :=
    hscan
  have htree : block.tree none = .leaf q := by rw [NestedBlock.tree, haggregator]
  have hderived : Disjunction text [.nested block] (block.tree none) :=
    .single (.single (.operand (.nested block)))
  obtain ⟨u, hu, hcontent, hmarked, hfaults⟩ := Draft.derived_tree known hderived
  rw [htree] at hcontent
  have hprune : prune u = some (.leaf q) := by
    rw [← hcontent]
    exact hmarked.prune_block (hcontent ▸ .query _ _)
  have herrors : (Draft.ofLexemes known text [.nested block]).errors = [] := by
    have hresolves : known.resolvesNested = true := rfl
    rw [hfaults, Knowledge.faultsOf, Knowledge.faults, if_pos hresolves, Knowledge.aggregatorFaults,
      haggregator]
    rfl
  have hevaluation : (Draft.ofLexemes known text [.nested block]).evaluation =
      ⟨ofTree (.leaf q), []⟩ := by
    rw [Draft.evaluation, herrors, if_neg (by simp)]
    exact evaluation_of_prune hu hprune (.leaf rfl)
  have hplan : (engine.resolving handler).planOf (.leaf q) =
      pure (.nested block.query "" handler) := rfl
  obtain ⟨-, -, hnotes, -⟩ := parse_of_tree mode hscan herrors hevaluation
  refine ⟨hnotes.trans (by rw [hplan]; rfl), fun payload => ?_⟩
  rw [aligned_of_tree mode hscan herrors hevaluation (by rw [hplan]; rfl), hplan]
  exact Plan.nested_slots _ _ _ _ _

/-- Strict evaluation yields a slot for each element of the result, and no
other. -/
theorem strict_slots (engine : Engine α) (text : String) (payload : List α) :
    ((engine.parse text .strict).aligned payload).slots =
      ((engine.parse text .strict).results payload).map some := by
  obtain ⟨hmode, hreturns⟩ := engine.parse_frame text .strict
  rw [Query.results_eq, Query.aligned, hmode]
  split
  · exact Plan.strict_slots _ _
  · rw [if_pos hreturns, Run.elements_ofElements, Run.slots_ofElements]

end Engine

/-- Handlers that agree on the queries shorter than a text answer it in the same
way. -/
theorem Engine.sameAnswers_of_shorter {α : Type} [BEq α] {engine : Engine α}
    {handler handler' : String → String → List α} {text text' : String}
    (hscan : Alike View.SameSense (Lexeme.scan engine.alphabet text)
      (Lexeme.scan engine.alphabet text')) (mode : Mode)
    (hnested : ∀ query filter, query.utf8ByteSize + 2 ≤ text.utf8ByteSize →
      handler' query filter = handler query filter) :
    ((engine.resolving handler).parse text mode).SameAnswers
      ((engine.resolving handler').parse text' mode) :=
  Engine.sameAnswers_of_alike mode hscan fun _ hls _ hq =>
    hnested _ _ (Lexeme.nests_size hls hq)

namespace Records

variable (records : Records) (orderBy : Option String)

/-- The engine at a depth answers nested queries by the engines below it. -/
theorem engine_eq_resolving (depth : Nat) : records.engine orderBy depth =
    (records.flatEngine orderBy).resolving (records.nestedResults orderBy depth) :=
  records.engine_eq orderBy depth

/-- The engine over records reads the built-in operators. -/
theorem flatEngine_alphabet :
    (records.flatEngine orderBy).alphabet = OperatorTable.builtin.alphabet :=
  (records.flatEngine orderBy).alphabet_eq.trans
    (congrArg OperatorTable.alphabet (records.flatEngine_frame orderBy).1)

section Depths

variable {records orderBy} {text text' : String} {depth depth' : Nat}
  (hscan : Alike View.SameSense
    (Lexeme.scan OperatorTable.builtin.alphabet text)
    (Lexeme.scan OperatorTable.builtin.alphabet text'))
include hscan

/-- Two depths will do for a text if they will for the shorter ones in it. -/
theorem parse_sameAnswers_of_nested (mode : Mode)
    (hnested : ∀ query filter, query.utf8ByteSize + 2 ≤ text.utf8ByteSize →
      records.nestedResults orderBy depth' query filter =
        records.nestedResults orderBy depth query filter) :
    ((records.engine orderBy depth).parse text mode).SameAnswers
      ((records.engine orderBy depth').parse text' mode) := by
  rw [engine_eq_resolving, engine_eq_resolving]
  rw [← records.flatEngine_alphabet orderBy] at hscan
  exact Engine.sameAnswers_of_shorter hscan mode hnested

omit hscan in
/-- A nested query yields the same at any two depths beyond its length. -/
theorem nestedResults_of_depth {query : String} (hdepth : query.utf8ByteSize < depth)
    (hdepth' : query.utf8ByteSize < depth') (filter : String) :
    records.nestedResults orderBy depth' query filter =
      records.nestedResults orderBy depth query filter := by
  induction depth generalizing depth' query filter with
  | zero => exact absurd hdepth (Nat.not_lt_zero _)
  | succ depth ih =>
      obtain ⟨depth', rfl⟩ := Nat.exists_eq_add_one.mpr (Nat.zero_lt_of_lt hdepth')
      have halike :=
        Alike.refl View.SameSense.refl (Lexeme.scan OperatorTable.builtin.alphabet query)
      refine (parse_sameAnswers_of_nested halike .strict fun q filter hq => ?_).results _
      exact ih (by omega) (by omega) filter

/-- **Depths beyond the length of a text give the same answers.** -/
theorem parse_sameAnswers (mode : Mode) (hdepth : text.utf8ByteSize ≤ depth)
    (hdepth' : text.utf8ByteSize ≤ depth') :
    ((records.engine orderBy depth).parse text mode).SameAnswers
      ((records.engine orderBy depth').parse text' mode) :=
  parse_sameAnswers_of_nested hscan mode fun query filter hquery =>
    nestedResults_of_depth (by omega) (by omega) filter

end Depths

/-- The elements stand for the records, in order. -/
theorem map_record_elements : records.elements.map records.record = records.toList := by
  rw [elements, ← List.ofFn_eq_map]
  exact List.ofFn_get records.toList

/-- A query in braces yields what the query yields by itself. -/
theorem parse_braced {query : String} {block : NestedBlock}
    (hscan : Lexeme.scan OperatorTable.builtin.alphabet (Text.braced query) =
      .ok [.nested block]) :
    (records.parse orderBy (Text.braced query) .strict).errors = [] ∧
      (records.parse orderBy (Text.braced query) .strict).results records.elements =
        (records.parse orderBy query .strict).results records.elements := by
  obtain ⟨haggregator, hquery⟩ := Lexeme.query_of_braced hscan
  have htrim := Text.utf8ByteSize_trim_le query
  have halphabet : ∀ op ∈ OperatorTable.builtin.alphabet, IsOperatorToken op := fun _ =>
    OperatorTable.builtin_isSound.isOperatorToken
  have hsame : ((records.engine orderBy (query.utf8ByteSize + 1)).parse
        (Text.trim query) .strict).SameAnswers (records.parse orderBy query .strict) :=
    parse_sameAnswers (Lexeme.scan_trim halphabet query) .strict (by omega) htrim
  rw [← records.flatEngine_alphabet orderBy] at hscan
  obtain ⟨herrors, hslots⟩ := Engine.parse_of_nested
    (records.nestedResults orderBy (query.utf8ByteSize + 2)) .strict hscan haggregator
  rw [← engine_eq_resolving] at herrors hslots
  rw [parse, Text.utf8ByteSize_braced]
  refine ⟨herrors, ?_⟩
  rw [hsame.results, Query.results_eq, Run.elements_of_slots (hslots _), hquery]
  rfl

end Records

namespace Check

/-- A check over well-formed data is one over its records. -/
theorem run_of_data {c : Check} {text : String} {data : Json} (hform : c.syntaxOnly = false)
    (hinput : c.input = some text) (hdata : Json.parse? text = some data) :
    c.run = c.runOver (Records.ofJson data) := by
  rw [run, hform, if_neg Bool.false_ne_true, hinput]
  dsimp only
  rw [hdata]

section Strict

variable {records : Records} {input orderBy : Option String} {query : String}

/-- A check of a query without errors gives the records that the query
yields. -/
theorem runOver_of_clean (hclean : (records.parse orderBy query .strict).errors = []) :
    ({ query, input, orderBy } : Check).runOver records = .ok (.records
      (((records.parse orderBy query .strict).results records.elements).map records.record)) := by
  have hslots : ((records.parse orderBy query .strict).aligned records.elements).slots =
      ((records.parse orderBy query .strict).results records.elements).map some :=
    Engine.strict_slots _ _ _
  have hmode : ({ query, input, orderBy } : Check).mode = .strict := rfl
  unfold runOver
  rw [hmode]
  dsimp only
  rw [if_neg Bool.false_ne_true, hclean, hslots, List.map_map]
  rfl

/-- A query with errors yields all the records. -/
theorem results_of_errors (herrors : (records.parse orderBy query .strict).errors ≠ []) :
    ((records.parse orderBy query .strict).results records.elements).map records.record =
      records.toList := by
  have haligned : (records.parse orderBy query .strict).aligned records.elements =
      Run.ofElements records.elements := Engine.aligned_of_errors herrors _
  rw [Query.results_eq, haligned, Run.elements_ofElements, Records.map_record_elements]

/-- A check with a document runs over the records in it. -/
theorem run_eq_runOver {text : String} {data : Json} (hdata : Json.parse? text = some data) :
    ({ query, input := some text, orderBy } : Check).run =
      ({ query, input := some text, orderBy } : Check).runOver (Records.ofJson data) :=
  run_of_data rfl rfl hdata

end Strict

/-- **A nested query over the same records means the query itself.**  If a query
in braces is a nested one, then a check of it gives what a check of the query
gives.  It never fails: if the query has errors, all the records come out. -/
theorem nested_query_means_the_query_itself {input : String} {data : Json}
    (hdata : Json.parse? input = some data) (orderBy : Option String) {query : String}
    {block : NestedBlock}
    (hscan : Lexeme.scan OperatorTable.builtin.alphabet (Text.braced query) =
      .ok [.nested block]) :
    let check (query : String) : Check := { query, input := some input, orderBy }
    (∀ outcome, (check query).run = .ok outcome →
        (check (Text.braced query)).run = .ok outcome) ∧
      ∀ failure, (check query).run = .error failure →
        (check (Text.braced query)).run = .ok (.records (Records.ofJson data).toList) := by
  intro check
  let records := Records.ofJson data
  have hrun : ∀ text, (check text).run = (check text).runOver records := fun _ =>
    run_eq_runOver hdata
  obtain ⟨hclean, hresults⟩ := records.parse_braced orderBy hscan
  have hbraced : (check (Text.braced query)).runOver records = .ok (.records
      (((records.parse orderBy query .strict).results records.elements).map records.record)) := by
    rw [← hresults]
    exact runOver_of_clean hclean
  rw [hrun, hrun, hbraced]
  constructor
  · intro outcome hok
    by_cases herrors : (records.parse orderBy query .strict).errors = []
    · exact (runOver_of_clean herrors).symm.trans hok
    · have hfails := ((check query).runOver_eq_error records _).mpr ⟨herrors, rfl⟩
      cases hfails.symm.trans hok
  · intro failure hfails
    obtain ⟨herrors, -⟩ := ((check query).runOver_eq_error records failure).mp hfails
    rw [results_of_errors herrors]

/-- `{a=2}` finds the second of two records, as `a=2` does. -/
theorem nested_query_of_one_record :
    let input := "[\x7b\"a\":1\x7d,\x7b\"a\":2\x7d]"
    let data : Json := .array [.object [("a", .number (.integer 1))],
      .object [("a", .number (.integer 2))]]
    let found : Outcome := .records [.object [("a", .number (.integer 2))]]
    Json.parse? input = some data ∧
      Lexeme.scan OperatorTable.builtin.alphabet (Text.braced "a=2") =
        .ok [.nested ⟨none, "a=2", ⟨"\x7ba=2\x7d", 0, 5⟩⟩] ∧
      ({ query := "a=2", input := some input } : Check).run = .ok found ∧
      ({ query := Text.braced "a=2", input := some input } : Check).run = .ok found := by
  intro input data found
  let records := Records.ofJson data
  have hdata : Json.parse? input = some data := by cbv
  have hscan : Lexeme.scan OperatorTable.builtin.alphabet (Text.braced "a=2") =
      .ok [.nested ⟨none, "a=2", ⟨"\x7ba=2\x7d", 0, 5⟩⟩] := by cbv
  have hclean : (records.parse none "a=2" .strict).errors = [] := by decide +kernel
  have hresults : (records.parse none "a=2" .strict).results records.elements =
      [⟨1, by decide⟩] := by decide +kernel
  have hrun : ({ query := "a=2", input := some input } : Check).run = .ok found := by
    rw [run_eq_runOver hdata, runOver_of_clean hclean, hresults]
    rfl
  exact ⟨hdata, hscan, hrun, (nested_query_means_the_query_itself hdata none hscan).1 _ hrun⟩

/-- The filter in `nosuch=1` is unknown, but nothing is said about it in
braces. -/
theorem unknown_filter_in_braces :
    let input := "[\x7b\"a\":1\x7d]"
    let record : Json := .object [("a", .number (.integer 1))]
    Json.parse? input = some (.array [record]) ∧
      Lexeme.scan OperatorTable.builtin.alphabet (Text.braced "nosuch=1") =
        .ok [.nested ⟨none, "nosuch=1", ⟨"\x7bnosuch=1\x7d", 0, 10⟩⟩] ∧
      ({ query := "nosuch=1", input := some input } : Check).run =
        .error (.query [⟨.unknownFilter "nosuch", 0, 8⟩]) ∧
      ({ query := Text.braced "nosuch=1", input := some input } : Check).run =
        .ok (.records [record]) := by
  intro input record
  let records := Records.ofJson (.array [record])
  have hdata : Json.parse? input = some (.array [record]) := by cbv
  have hscan : Lexeme.scan OperatorTable.builtin.alphabet (Text.braced "nosuch=1") =
      .ok [.nested ⟨none, "nosuch=1", ⟨"\x7bnosuch=1\x7d", 0, 10⟩⟩] := by cbv
  have herrors : (records.parse none "nosuch=1" .strict).errors =
      [⟨.unknownFilter "nosuch", 0, 8⟩] := by decide +kernel
  have hsome : (records.parse none "nosuch=1" .strict).errors ≠ [] := by
    rw [herrors]
    exact List.cons_ne_nil _ _
  obtain ⟨hclean, hresults⟩ := records.parse_braced none hscan
  refine ⟨hdata, hscan, ?_, ?_⟩
  · rw [run_eq_runOver hdata]
    exact (runOver_eq_error _ records _).mpr ⟨hsome, congrArg Failure.query herrors.symm⟩
  · rw [run_eq_runOver hdata, runOver_of_clean hclean, hresults, results_of_errors hsome]
    rfl

end Check

end FilterQuery
