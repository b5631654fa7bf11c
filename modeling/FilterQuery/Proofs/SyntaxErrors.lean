import FilterQuery.Proofs.Alphabets
import FilterQuery.Proofs.FormulaMeaning
import FilterQuery.Proofs.ReachableQueries
import FilterQuery.Proofs.RecordEngines
import FilterQuery.Proofs.Residues
import FilterQuery.Proofs.Views
import FilterQuery.Records.Check

/-!
# Errors of syntax

What an engine knows beside the tokens of its operators does not show in the
form of a query.  It shows in the marks of the nodes to be skipped and in errors
of meaning, and so two engines with the same operators read the same tokens,
toggles and comments from a text, write its graph in the same way and report the
same fatal errors.  In particular an engine that knows nothing at all finds just
the fatal errors that a check over records finds.
-/

namespace FilterQuery

open FilterQuery.Graph

variable {α β : Type}

namespace View

/-- The form of a text, whatever its names mean. -/
def form : View := ⟨true, false⟩

/-- The form keeps the fatal errors. -/
theorem errors_form (es : List QueryError) : form.errors es = es.filter (·.isFatal) := by
  have herror : form.error = id := rfl
  rw [errors, herror, List.map_id]
  rfl

mutual

/-- The form keeps a lexeme as it is. -/
theorem lexeme_form : ∀ l : Lexeme, form.lexeme l = l
  | .group inner t => by
      rw [lexeme, lexemes_form inner]
      rfl
  | .filter f b t => by cases b <;> rfl
  | .and _ | .or _ | .not _ | .nested _ | .toggle .. | .comment .. | .word .. => rfl

/-- The form keeps lexemes as they are. -/
theorem lexemes_form : ∀ ls : List Lexeme, form.lexemes ls = ls
  | [] => rfl
  | l :: ls => by rw [lexemes, lexeme_form l, lexemes_form ls]

end

/-- A view of a graph is rendered as the graph is. -/
theorem render_graph (v : View) (g : Graph) : (v.graph g).render = g.render := by
  refine render_eq_of_kinds? ?_
  rw [kinds?, tree?_graph, Option.map_map, kinds?]
  congr 1
  funext t
  exact Tree.map_map ..

end View

/-- **The form of a draft does not depend on what is known about names.** -/
theorem Draft.form_ofLexemes {known : Knowledge} (hknown : known.IsSemantic) (text : String)
    (ls : List Lexeme) :
    View.form.draft (ofLexemes known text ls) = ofLexemes .trusting text ls := by
  rw [View.draft_ofLexemes hknown, View.lexemes_form]
  rfl

namespace Engine

variable {engine : Engine α} {text : String}

/-- Neither the graph to evaluate nor its plan adds a fatal error to those of
the draft. -/
theorem parse_fatal {ls : List Lexeme} (mode : Mode)
    (hscan : Lexeme.scan engine.alphabet text = .ok ls) :
    (engine.parse text mode).errors.filter (·.isFatal) =
      (Draft.ofLexemes engine.knowledge text ls).errors.filter (·.isFatal) := by
  have hnone : ∀ {es : List QueryError}, (∀ e ∈ es, e.kind = .semantic) →
      es.filter (·.isFatal) = [] := by
    intro es hes
    refine List.filter_eq_nil_iff.mpr fun e he => ?_
    rw [QueryError.isFatal, hes e he]
    decide
  obtain ⟨hgraph, hnotes⟩ := Query.evaluation_isEvaluable engine.knowledge text ls
  obtain ⟨q, hq, hengine, -, hqgraph, herrors⟩ := parse_eq mode hscan
  rw [hq, Query.compile]
  split
  · next hclean =>
      rw [List.isEmpty_iff, herrors, List.append_eq_nil_iff] at hclean
      rw [← hqgraph] at hgraph
      rw [hclean.1, List.filter_nil]
      exact hnone hgraph.compile_semantic
  · rw [← List.append_nil ((Draft.ofLexemes engine.knowledge text ls).errors.filter _),
      ← hnone hnotes, ← List.filter_append, ← herrors]

/-- What is parsed is what the lexemes are drafted to. -/
theorem parse_form {ls : List Lexeme} (mode : Mode)
    (hscan : Lexeme.scan engine.alphabet text = .ok ls) :
    let q := engine.parse text mode
    let draft := Draft.ofLexemes engine.knowledge text ls
    q.tokens = Lexeme.flatTokensOf ls ∧ q.toggles = draft.toggles ∧
      q.comments = draft.comments ∧ q.queryGraph = draft.graph := by
  have hcompile : ∀ q : Query α, q.compile.tokens = q.tokens ∧ q.compile.toggles = q.toggles ∧
      q.compile.comments = q.comments ∧ q.compile.queryGraph = q.queryGraph := by
    intro q
    rw [Query.compile]
    split <;> exact ⟨rfl, rfl, rfl, rfl⟩
  intro q draft
  have hq : q = engine.parse text mode := rfl
  rw [parse, hscan] at hq
  rw [hq]
  exact hcompile _

end Engine

/-- What the form of a query decides about is the same for both. -/
structure Query.SameForm (q : Query α) (q' : Query β) : Prop where
  tokens : q.tokens = q'.tokens
  toggles : q.toggles = q'.toggles
  comments : q.comments = q'.comments
  render : q.queryGraph.render = q'.queryGraph.render
  fatal : q.errors.filter (·.isFatal) = q'.errors.filter (·.isFatal)

/-- **Engines with the same operators see the same form in a text.** -/
theorem Engine.parse_sameForm (engine : Engine α) (engine' : Engine β)
    (h : ∀ token, engine.operators.contains token = engine'.operators.contains token)
    (text : String) (mode mode' : Mode) :
    (engine.parse text mode).SameForm (engine'.parse text mode') := by
  have hscan : Lexeme.scan engine.alphabet text = Lexeme.scan engine'.alphabet text := by
    rw [engine.alphabet_eq, engine'.alphabet_eq]
    exact Lexeme.scan_of_same_tokens h text
  cases hleft : Lexeme.scan engine.alphabet text with
  | error e =>
      have hright : Lexeme.scan engine'.alphabet text = .error e := hscan.symm.trans hleft
      rw [parse, parse, hleft, hright]
      exact ⟨rfl, rfl, rfl, rfl, rfl⟩
  | ok ls =>
      have hright : Lexeme.scan engine'.alphabet text = .ok ls := hscan.symm.trans hleft
      have hform : View.form.draft (Draft.ofLexemes engine.knowledge text ls) =
          View.form.draft (Draft.ofLexemes engine'.knowledge text ls) := by
        rw [Draft.form_ofLexemes engine.knowledge_isSemantic,
          Draft.form_ofLexemes engine'.knowledge_isSemantic]
      obtain ⟨htokens, htoggles, hcomments, hgraph⟩ := engine.parse_form mode hleft
      obtain ⟨htokens', htoggles', hcomments', hgraph'⟩ := engine'.parse_form mode' hright
      obtain ⟨hdgraph, hderrors, hdtoggles, hdcomments⟩ := Draft.mk.inj hform
      refine ⟨htokens.trans htokens'.symm, ?_, ?_, ?_, ?_⟩
      · rw [htoggles, htoggles', hdtoggles]
      · rw [hcomments, hcomments', hdcomments]
      · rw [hgraph, hgraph', ← View.render_graph .form, hdgraph, View.render_graph]
      · rw [parse_fatal mode hleft, parse_fatal mode' hright, ← View.errors_form, hderrors,
          View.errors_form]

namespace Check

/-- The fatal errors of a query, which its form alone decides about. -/
def fatal (c : Check) : List QueryError :=
  (({} : Engine Unit).parse c.query).errors.filter (·.isFatal)

/-- A check of the form fails if there are fatal errors, and with all of
them. -/
theorem runSyntax_eq_error (c : Check) (failure : Failure) :
    c.runSyntax = .error failure ↔ c.fatal ≠ [] ∧ failure = .query c.fatal := by
  let engine : Engine Unit := { validation := { checksFilters := false } }
  have hform : (engine.parse c.query c.mode).SameForm (({} : Engine Unit).parse c.query) :=
    engine.parse_sameForm {} (fun _ => rfl) _ _ _
  have hfatal : (engine.parse c.query c.mode).errors.filter (·.isFatal) = c.fatal := hform.fatal
  unfold runSyntax
  dsimp only
  rw [hfatal]
  split
  · next hnone => simp [hnone]
  · next hsome =>
      rw [Except.error.injEq]
      exact ⟨fun h => ⟨hsome, h.symm⟩, fun h => h.2.symm⟩

/-- A check over records fails with the errors of the query, optimized or
not. -/
theorem runOver_eq_error (c : Check) (records : Records) (failure : Failure) :
    c.runOver records = .error failure ↔
      (records.parse c.orderBy c.query c.mode).errors ≠ [] ∧
        failure = .query (records.parse c.orderBy c.query c.mode).errors := by
  let q := records.parse c.orderBy c.query c.mode
  let options : OptimizationOptions := { propagateNot := true, swapNotToRight := true }
  have hsame : q.SameMeaning (q.optimize options) :=
    (Query.optimize_sameMeaning (Engine.parse_isCompiled _ _ _) options).1
  have herrors : (if c.optimized then q.optimize options else q).errors = q.errors := by
    split
    · exact hsame.errors
    · rfl
  unfold runOver
  dsimp only
  rw [herrors]
  split
  · next hclean => simp [q, List.isEmpty_iff.mp hclean]
  · next hfaulty =>
      rw [List.isEmpty_iff] at hfaulty
      rw [Except.error.injEq]
      exact ⟨fun h => ⟨hfaulty, h.symm⟩, fun h => h.2.symm⟩

/-- The fatal errors over records are those of the form. -/
theorem fatal_of_records (c : Check) (records : Records) :
    (records.parse c.orderBy c.query c.mode).errors.filter (·.isFatal) = c.fatal := by
  refine (Engine.parse_sameForm _ {} (fun token => ?_) _ _ _).fatal
  rw [Records.engine_operators]
  rfl

end Check

/-- **The form of a query does not depend on what an engine knows.**  Engines
with the same operator tokens get the same tokens, toggles and comments from a
text, write its graph in the same way and report the same fatal errors in the
same order.  A look at the form of a query alone fails just if a check over
records reports a fatal error, and then with the fatal errors of that check. -/
theorem form_does_not_depend_on_knowledge :
    (∀ {α β : Type} (engine : Engine α) (engine' : Engine β),
      (∀ token, engine.operators.contains token = engine'.operators.contains token) →
        ∀ (text : String) (mode mode' : Mode),
          let q := engine.parse text mode
          let q' := engine'.parse text mode'
          q.tokens = q'.tokens ∧ q.toggles = q'.toggles ∧ q.comments = q'.comments ∧
            q.queryGraph.render = q'.queryGraph.render ∧
            q.errors.filter (·.isFatal) = q'.errors.filter (·.isFatal)) ∧
    ∀ (c c' : Check) (input : String) (data : Json), c.query = c'.query → c.syntaxOnly = true →
      c'.syntaxOnly = false → c'.input = some input → Json.parse? input = some data →
        ∀ failure, c.run = .error failure ↔ ∃ es, c'.run = .error (.query es) ∧
          es.any (·.isFatal) = true ∧ failure = .query (es.filter (·.isFatal)) := by
  constructor
  · intro α β engine engine' h text mode mode'
    obtain ⟨htokens, htoggles, hcomments, hrender, hfatal⟩ :=
      engine.parse_sameForm engine' h text mode mode'
    exact ⟨htokens, htoggles, hcomments, hrender, hfatal⟩
  · intro c c' input data hquery hsyntax hfull hinput hdata failure
    let es := ((Records.ofJson data).parse c'.orderBy c'.query c'.mode).errors
    have hfatal : es.filter (·.isFatal) = c.fatal := by
      rw [c'.fatal_of_records, Check.fatal, Check.fatal, hquery]
    have hany : es.any (·.isFatal) = true ↔ c.fatal ≠ [] := by
      rw [← hfatal, Ne, List.filter_eq_nil_iff]
      simp
    have hrun : c.run = c.runSyntax := by rw [Check.run, hsyntax, if_pos rfl]
    have hrun' : c'.run = c'.runOver (Records.ofJson data) := by
      rw [Check.run, hfull, if_neg (by simp), hinput]
      dsimp only
      rw [hdata]
    simp only [hrun, hrun', Check.runSyntax_eq_error, Check.runOver_eq_error, ← hany]
    constructor
    · rintro ⟨hsome, rfl⟩
      refine ⟨es, ⟨?_, rfl⟩, hsome, by rw [hfatal]⟩
      rintro (hnil : es = [])
      rw [hnil] at hsome
      cases hsome
    · rintro ⟨es', ⟨-, heq⟩, hsome, rfl⟩
      obtain rfl : es' = es := Check.Failure.query.inj heq
      exact ⟨hsome, by rw [hfatal]⟩

/-- The filter in `a:1 and` is unknown to one engine and nothing to complain of
for the other; that an operand is missing both report, and so does a check over
no records at all. -/
theorem form_of_an_unknown_filter :
    let engine : Engine Unit := {}
    let engine' : Engine Nat := { validation := { checksFilters := false } }
    let c : Check := { query := "a:1 and", syntaxOnly := true }
    let c' : Check := { query := "a:1 and", input := some "[]" }
    (∀ token, engine.operators.contains token = engine'.operators.contains token) ∧
      (engine.parse "a:1 and").errors.filter (·.isFatal) =
        (engine'.parse "a:1 and" .fast).errors.filter (·.isFatal) ∧
      c.query = c'.query ∧ c.syntaxOnly = true ∧ c'.syntaxOnly = false ∧ c'.input = some "[]" ∧
      Json.parse? "[]" = some (.array []) ∧ c.run = .error (.query c.fatal) ∧
      ∃ es, c'.run = .error (.query es) ∧ es.any (·.isFatal) = true ∧
        es.filter (·.isFatal) = c.fatal := by
  intro engine engine' c c'
  have hdata : Json.parse? "[]" = some (.array []) := rfl
  have hsyntax : c.run = .error (.query c.fatal) :=
    (Check.runSyntax_eq_error c _).mpr ⟨by decide +kernel, rfl⟩
  obtain ⟨hparse, hcheck⟩ := form_does_not_depend_on_knowledge
  obtain ⟨-, -, -, -, hfatal⟩ := hparse engine engine' (fun _ => rfl) "a:1 and" .strict .fast
  obtain ⟨es, hrun, hany, heq⟩ := (hcheck c c' "[]" _ rfl rfl rfl rfl hdata _).mp hsyntax
  exact ⟨fun _ => rfl, hfatal, rfl, rfl, rfl, rfl, hdata, hsyntax, es, hrun, hany,
    (Check.Failure.query.inj heq).symm⟩

end FilterQuery
