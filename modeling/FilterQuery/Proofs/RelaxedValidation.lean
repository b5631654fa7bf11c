import FilterQuery.Graph.Rendering
import FilterQuery.Proofs.Whitelists

/-!
# Relaxed checks of filters

The settings of an engine decide what is done about a filter that is unknown or
has no value: it is reported, skipped, or passed over.  A filter that is found
and has a value is none of their business.  As the strict settings report every
other one, the filters of a text that they accept are all of that sort, and the
same text gives the same query whatever the settings are.
-/

namespace FilterQuery

open FilterQuery.Graph Grammar Lexeme

variable {α : Type}

section Drafts

variable {known : Knowledge} {judge : FilterExpression → Bool → Verdict} (text : String)

/-- The verdict on a node, which is none unless it is a filter. -/
def Knowledge.verdict (known : Knowledge) : NodeKind → Verdict
  | .filter f => known.judge f false
  | .nestedFilter f => known.judge f true
  | _ => {}

/-- These verdicts on the nodes are those that are known. -/
def Knowledge.JudgedBy (known : Knowledge) (judge : FilterExpression → Bool → Verdict)
    (cs : List Content) : Prop :=
  ∀ c ∈ cs, { known with judge }.verdict c.kind = known.verdict c.kind

mutual

/-- **A lexeme is drafted by the verdicts on the filters in it.** -/
theorem Draft.addLexeme_judge : ∀ l : Lexeme, known.JudgedBy judge (operands l) →
    addLexeme { known with judge } text l = addLexeme known text l
  | .group inner _, h => by
      rw [addLexeme, addLexeme, addLexemes_judge inner h]
  | .and _, _ | .or _, _ | .not _, _ | .word _ _, _ | .toggle _ _, _ | .comment _ _, _ => by
      rw [addLexeme, addLexeme]
  | .nested _, _ => by
      rw [addLexeme, addLexeme]
      rfl
  | .filter f none _, h => by
      have hverdict : judge f false = known.judge f false := h _ (List.mem_singleton_self _)
      rw [addLexeme, addLexeme]
      simp only [addFilter, hverdict, Option.isSome_none]
  | .filter f (some _) _, h => by
      have hverdict : judge f true = known.judge f true := h _ List.mem_cons_self
      rw [addLexeme, addLexeme]
      simp only [addFilter, hverdict, Option.isSome_some, checkAggregator]

/-- Lexemes are drafted by the verdicts on the filters in them. -/
theorem Draft.addLexemes_judge : ∀ ls : List Lexeme, known.JudgedBy judge (operandsOf ls) →
    addLexemes { known with judge } text ls = addLexemes known text ls
  | [], _ => by rw [addLexemes, addLexemes]
  | l :: ls, h => by
      obtain ⟨hl, hls⟩ := List.forall_mem_append.mp h
      rw [addLexemes, addLexemes, addLexeme_judge l hl, addLexemes_judge ls hls]

end

/-- So is the whole draft. -/
theorem Draft.ofLexemes_judge {ls : List Lexeme} (h : known.JudgedBy judge (operandsOf ls)) :
    ofLexemes { known with judge } text ls = ofLexemes known text ls := by
  simp only [ofLexemes, addLexemes_judge text ls h]

end Drafts

/-- The engine with other settings for its checks of filters. -/
def Engine.validating (engine : Engine α) (validation : Validation) : Engine α :=
  { engine with validation }

namespace Engine

variable (engine : Engine α) (validation : Validation)

/-- **Compiling does not look at the settings.** -/
theorem compile_validating (g : Graph) :
    (engine.validating validation).compile g = engine.compile g := by
  have hkeeps : KeepsCompiling (fun _ => True) (engine.validating validation) engine
      fun _ => Eq :=
    .of_eq rfl rfl rfl rfl rfl
  rw [compile, compile]
  cases g.tree? with
  | none => rfl
  | some t =>
      dsimp only
      rw [(compile_eq t).2, (compile_eq t).2, (hkeeps.contents _ fun _ _ => trivial).2]

/-- **A filter that the strict settings find no fault with is none of the
business of any.** -/
theorem judge_validating {f : FilterExpression} {nested : Bool}
    (h : ((engine.validating {}).judge f nested).cause = none) :
    (engine.validating validation).judge f nested = {} := by
  have hfind : ∀ validation : Validation,
      (engine.validating validation).findFilter? f.name = engine.findFilter? f.name := fun _ => rfl
  simp only [judge, hfind] at h ⊢
  cases hfound : engine.findFilter? f.name with
  | none => simp [hfound, validating] at h
  | some found =>
      simp only [hfound] at h ⊢
      split at h
      · simp [validating] at h
      · next hcomplete =>
          rw [if_neg hcomplete]
          split at h
          · next haccepts => rw [if_pos haccepts]
          · cases h

end Engine

/-- The query of an engine with other settings. -/
def Query.validating (q : Query α) (validation : Validation) : Query α :=
  { q with engine := q.engine.validating validation }

/-- Compilation does not look at the settings of the validation. -/
theorem Query.compile_validating (q : Query α) (validation : Validation) :
    (q.validating validation).compile = q.compile.validating validation := by
  have hcompile : (q.engine.validating validation).compile q.graph = q.engine.compile q.graph :=
    q.engine.compile_validating validation q.graph
  cases herrors : q.errors.isEmpty with
  | false => simp only [compile, validating, herrors, Bool.false_eq_true, if_false]
  | true => simp only [compile, validating, herrors, if_true, hcompile]

/-- Nor does optimization. -/
theorem Query.optimize_validating (q : Query α) (validation : Validation)
    (options : OptimizationOptions) :
    (q.validating validation).optimize options = (q.optimize options).validating validation := by
  have hvalid : (q.validating validation).isValid = q.isValid := rfl
  rw [optimize, optimize, hvalid]
  split
  · let optimized := q.graph.optimize options
    exact Query.compile_validating { q with graph := optimized.value, errors := optimized.notes }
      validation
  · rfl

namespace Engine

variable {engine : Engine α} {text : String} {mode : Mode}

/-- A text that the strict settings accept has the same draft under all. -/
theorem draft_validating {ls : List Lexeme} (validation : Validation)
    (h : (Draft.ofLexemes (engine.validating {}).knowledge text ls).errors = []) :
    Draft.ofLexemes (engine.validating validation).knowledge text ls =
      Draft.ofLexemes (engine.validating {}).knowledge text ls := by
  let strict := (engine.validating {}).knowledge
  have hknown : (engine.validating validation).knowledge =
      { strict with judge := (engine.validating validation).judge } := rfl
  rw [hknown]
  refine Draft.ofLexemes_judge text fun c hc => ?_
  have hcause := Draft.cause?_of_clean h c hc
  cases hkind : c.kind
  case filter f =>
    rw [hkind] at hcause
    exact (judge_validating engine validation hcause).trans (judge_validating engine {} hcause).symm
  case nestedFilter f =>
    rw [hkind] at hcause
    exact (judge_validating engine validation hcause).trans (judge_validating engine {} hcause).symm
  all_goals rfl

/-- A text that the strict settings accept gives the same query under all. -/
theorem parse_validating (validation : Validation)
    (h : ((engine.validating {}).parse text mode).errors = []) :
    (engine.validating validation).parse text mode =
      ((engine.validating {}).parse text mode).validating validation := by
  cases hscan : scan (engine.validating {}).alphabet text with
  | error e =>
      rw [parse, hscan] at h
      cases h
  | ok ls =>
      have hdraft := draft_validating validation (draft_of_clean mode hscan h).1
      have hscan' : scan (engine.validating validation).alphabet text = .ok ls := hscan
      rw [parse, parse, hscan, hscan']
      dsimp only
      rw [← Query.compile_validating, hdraft]
      rfl

/-- **Relaxing the checks never changes a query that the strict ones accept.**
If a text gives no errors under the strict settings, then under any others it
gives the same query but for the settings of its engine: no errors, the same
graph to evaluate, and the same answers for every payload and element, also when
it has been optimized. -/
theorem relaxed_checks_keep_accepted_queries [BEq α] (engine : Engine α) (text : String)
    (mode : Mode) (validation : Validation)
    (h : ((engine.validating {}).parse text mode).errors = []) :
    let strict := (engine.validating {}).parse text mode
    let relaxed := (engine.validating validation).parse text mode
    relaxed = strict.validating validation ∧ relaxed.errors = [] ∧
      relaxed.graph.render = strict.graph.render ∧
      (∀ payload, relaxed.aligned payload = strict.aligned payload ∧
        relaxed.apply payload = strict.apply payload ∧
        relaxed.results payload = strict.results payload) ∧
      (∀ e, relaxed.test e = strict.test e) ∧
      ∀ options, relaxed.optimize options = (strict.optimize options).validating validation := by
  intro strict relaxed
  have hrelaxed : relaxed = strict.validating validation := parse_validating validation h
  refine ⟨hrelaxed, ?_⟩
  rw [hrelaxed]
  exact ⟨h, rfl, fun _ => ⟨rfl, rfl, rfl⟩, fun _ => rfl,
    Query.optimize_validating strict validation⟩

/-- The text `kind:prefab or -kind=model` is accepted, and gives the same
answers where unknown and unfinished filters are skipped. -/
theorem accepted_query_of_two_filters :
    let strict := (lenient.validating {}).parse "kind:prefab or -kind=model"
    let relaxed := (lenient.validating ⟨false, true, true⟩).parse "kind:prefab or -kind=model"
    strict.errors = [] ∧ relaxed.errors = [] ∧
      ∀ payload, relaxed.results payload = strict.results payload := by
  intro strict relaxed
  have hclean : strict.errors = [] := by decide +kernel
  obtain ⟨-, herrors, -, hpayload, -⟩ :=
    relaxed_checks_keep_accepted_queries lenient _ .strict ⟨false, true, true⟩ hclean
  exact ⟨hclean, herrors, fun payload => (hpayload payload).2.2⟩

end Engine

end FilterQuery
