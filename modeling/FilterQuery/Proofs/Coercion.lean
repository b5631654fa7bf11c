import FilterQuery.Proofs.Compiling
import FilterQuery.Proofs.HandlerTables

/-!
# Coercion

The value of a filter is a text, and its operator decides what to read it as:
the operator lists the right-hand types that it can compare with the filter's
type, and the first of them that the text can be parsed as is taken.  The
handler is looked up on its own, by the filter's type and the type that was
taken.  Both read one table, in which the unspecific type is a type like any
other when it is declared, stands for all types on the right, and as a pair of
itself is the fallback.

The two agree: a listed type has a handler.  A text that can be parsed as none
of them may still be parsed as the filter's own type, but then that type is not
listed, and it has no handler.
-/

namespace FilterQuery

namespace Engine

variable {α : Type} {engine : Engine α}

/-- Every text can be parsed as the unspecific type. -/
theorem parseValue?_any (engine : Engine α) (text : String) :
    engine.parseValue? .any text ≠ none := by
  rw [parseValue?, ne_eq, Option.or_eq_none_iff, not_and]
  exact fun _ => nofun

section Coercion

variable {filter : Filter α} {op : Operator} {text : String} (hparser : filter.parser = none)

include hparser

/-- The first listed type that fits is taken. -/
theorem coerce?_of_listed {before after : List ValueType} {rhs : ValueType} {v : Value}
    (htypes : op.rhsTypes filter.type = before ++ rhs :: after)
    (hbefore : ∀ type ∈ before, engine.parseValue? type text = none)
    (hv : engine.parseValue? rhs text = some v) :
    engine.coerce? filter (some op) text = some (rhs, v) := by
  have hfirst : (op.rhsTypes filter.type).findSome?
      (fun type => (engine.parseValue? type text).map (type, ·)) = some (rhs, v) := by
    refine List.findSome?_eq_some_iff.mpr ⟨before, rhs, after, htypes, ?_, fun type hmem => ?_⟩
    · rw [hv, Option.map_some]
    · rw [hbefore type hmem, Option.map_none]
  rw [coerce?, hparser, Option.map_some, hfirst]
  rfl

/-- If no listed type fits, the filter's own type is the last resort. -/
theorem coerce?_of_none_listed
    (hnone : ∀ type ∈ op.rhsTypes filter.type, engine.parseValue? type text = none) :
    engine.coerce? filter (some op) text =
      (engine.parseValue? filter.type text).map (filter.type, ·) := by
  have hfirst : (op.rhsTypes filter.type).findSome?
      (fun type => (engine.parseValue? type text).map (type, ·)) = none := by
    refine List.findSome?_eq_none_iff.mpr fun type hmem => ?_
    rw [hnone type hmem, Option.map_none]
  rw [coerce?, hparser, Option.map_some, hfirst]
  rfl

omit hparser in
/-- The last resort of coercion has no handler. -/
theorem resolve?_of_none_listed {v : Value}
    (hnone : ∀ type ∈ op.rhsTypes filter.type, engine.parseValue? type text = none)
    (hv : engine.parseValue? filter.type text = some v) :
    op.resolve? filter.type filter.type = none := by
  have hunlisted : ∀ type, engine.parseValue? type text ≠ none →
      op.listed? filter.type type = none := by
    intro type hparsed
    rw [← Option.not_isSome_iff_eq_none, ← Operator.mem_rhsTypes]
    exact fun hmem => hparsed (hnone type hmem)
  exact Operator.resolve?_of_not_listed (hunlisted _ (by simp [hv]))
    (hunlisted _ (engine.parseValue?_any text))

end Coercion

/-- There is a first type that a text can be parsed as, or it can be parsed as
none. -/
theorem exists_first_parsed (engine : Engine α) (types : List ValueType) (text : String) :
    (∃ before rhs after v, types = before ++ rhs :: after ∧
      (∀ type ∈ before, engine.parseValue? type text = none) ∧
        engine.parseValue? rhs text = some v) ∨
      ∀ type ∈ types, engine.parseValue? type text = none := by
  cases hfirst : types.findSome? fun type => engine.parseValue? type text with
  | none => exact .inr (List.findSome?_eq_none_iff.mp hfirst)
  | some v =>
      obtain ⟨before, rhs, after, htypes, hrhs, hbefore⟩ := List.findSome?_eq_some_iff.mp hfirst
      exact .inl ⟨before, rhs, after, v, htypes, hbefore, hrhs⟩

/-- Arguments that could be made were made without an error. -/
theorem arguments_of_value {found : FoundFilter α} {f : FilterExpression} {token : Token}
    {args : FilterArgs} (h : (engine.arguments found f token).value = some args) :
    engine.arguments found f token = pure (some args) := by
  unfold arguments at h ⊢
  split at h
  · exact congrArg pure h
  · cases h
  · dsimp only at h ⊢
    split at h
    · exact congrArg pure h
    · cases h

section Reader

variable {f : FilterExpression} {found : FoundFilter α}
  {read : FilterArgs → Option (α → Option Value)} {args : FilterArgs} {op : Operator}
  (token : Token)
  (hfound : engine.findFilter? f.name = some found)
  (hsource : found.filter.source = .reader read)
  (hargs : (engine.arguments found f token).value = some args)
  (hop : engine.operators.find? f.operator = some op)

include hfound hsource hargs hop

/-- A filter that reads values compiles to a comparison with what its text was
coerced to. -/
theorem compileFilter_of_coerced {rhs : ValueType} {v : Value} {handler : Handler}
    (hcoerced : engine.coerce? found.filter (some op) f.value = some (rhs, v))
    (hhandler : op.resolve? found.filter.type rhs = some handler) :
    engine.compileFilter f token =
      pure (.compare { label := found.filter.label, read := read args } handler
        (engine.comparisonFor found.filter) v) := by
  simp only [compileFilter, hfound, arguments_of_value hargs, hop, hcoerced, hsource, handlerFor,
    hhandler]
  rfl

/-- Without a handler for the type that was taken, the filter is an error and
never holds. -/
theorem compileFilter_of_unhandled {rhs : ValueType} {v : Value}
    (hcoerced : engine.coerce? found.filter (some op) f.value = some (rhs, v))
    (hhandler : op.resolve? found.filter.type rhs = none) :
    engine.compileFilter f token =
      failing (.noHandler f.operator found.filter.type rhs) token .never := by
  simp only [compileFilter, hfound, arguments_of_value hargs, hop, hcoerced, hsource, handlerFor,
    hhandler]
  rfl

omit hsource in
/-- A text that cannot be parsed is an error, and the filter never holds. -/
theorem compileFilter_of_unparsed
    (hcoerced : engine.coerce? found.filter (some op) f.value = none) :
    engine.compileFilter f token =
      failing (.unparsableValue f.value f.name found.filter.type) token .never := by
  simp only [compileFilter, hfound, arguments_of_value hargs, hop, hcoerced]
  rfl

/-- **The first listed type that fits is compared by its handler.** -/
theorem compileFilter_of_first_parsed (hparser : found.filter.parser = none)
    (before : List ValueType) (rhs : ValueType) (after : List ValueType) (v : Value)
    (htypes : op.rhsTypes found.filter.type = before ++ rhs :: after)
    (hbefore : ∀ type ∈ before, engine.parseValue? type f.value = none)
    (hv : engine.parseValue? rhs f.value = some v) :
    ∃ handler, op.listed? found.filter.type rhs = some handler ∧
      engine.compileFilter f token =
        pure (.compare { label := found.filter.label, read := read args } handler
          (engine.comparisonFor found.filter) v) := by
  have hlisted : rhs ∈ op.rhsTypes found.filter.type := by simp [htypes]
  obtain ⟨handler, hhandler⟩ := Option.isSome_iff_exists.mp (Operator.mem_rhsTypes.mp hlisted)
  exact ⟨handler, hhandler, compileFilter_of_coerced token hfound hsource hargs hop
    (coerce?_of_listed hparser htypes hbefore hv) (Operator.resolve?_of_listed hhandler)⟩

/-- **The last resort of coercion never helps.**  If no listed type fits, the
filter is an error and never holds. -/
theorem compileFilter_of_none_listed (hparser : found.filter.parser = none)
    (hnone : ∀ type ∈ op.rhsTypes found.filter.type, engine.parseValue? type f.value = none) :
    (engine.compileFilter f token).value = .never ∧ (engine.compileFilter f token).notes ≠ [] := by
  have hlast := coerce?_of_none_listed hparser hnone
  cases hown : engine.parseValue? found.filter.type f.value with
  | none =>
      rw [hown] at hlast
      rw [compileFilter_of_unparsed token hfound hargs hop hlast]
      exact ⟨rfl, List.cons_ne_nil _ _⟩
  | some v =>
      rw [hown] at hlast
      have hunhandled := resolve?_of_none_listed hnone hown
      rw [compileFilter_of_unhandled token hfound hsource hargs hop hlast hunhandled]
      exact ⟨rfl, List.cons_ne_nil _ _⟩

/-- **Coercion and the look-up of handlers agree.**  A filter that reads values
and leaves parsing to the engine compiles without an error exactly if its text
can be parsed as a right-hand type of its operator.  The first of these is
taken, and values are compared by the handler of the pair, or for the unspecific
type by the fallback if the pair has none.  If the text can be parsed as none of
them, the filter never holds, though its text may be of the filter's own type;
and only then can coercion take a type without a handler. -/
theorem coerced_values_are_handled (hparser : found.filter.parser = none) :
    ((engine.conditionOf (.leaf ⟨.filter f, token⟩)).notes = [] ↔
        ∃ rhs ∈ op.rhsTypes found.filter.type, (engine.parseValue? rhs f.value).isSome = true) ∧
      (∀ before rhs after v, op.rhsTypes found.filter.type = before ++ rhs :: after →
        (∀ earlier ∈ before, engine.parseValue? earlier f.value = none) →
        engine.parseValue? rhs f.value = some v →
        ∃ handler,
          (if rhs = .any then (op.pairHandler? found.filter.type .any).or op.fallback
            else op.pairHandler? found.filter.type rhs) = some handler ∧
          engine.conditionOf (.leaf ⟨.filter f, token⟩) =
            pure (.compare { label := found.filter.label, read := read args } handler
              (engine.comparisonFor found.filter) v)) ∧
      ((∀ rhs ∈ op.rhsTypes found.filter.type, engine.parseValue? rhs f.value = none) →
        (engine.conditionOf (.leaf ⟨.filter f, token⟩)).value = .never ∧
          (engine.conditionOf (.leaf ⟨.filter f, token⟩)).notes ≠ []) ∧
      ∀ rhs v, engine.coerce? found.filter (some op) f.value = some (rhs, v) →
        op.resolve? found.filter.type rhs = none →
        ∀ rhs ∈ op.rhsTypes found.filter.type, engine.parseValue? rhs f.value = none := by
  have hcompared := compileFilter_of_first_parsed token hfound hsource hargs hop hparser
  have hnever := compileFilter_of_none_listed token hfound hsource hargs hop hparser
  rcases engine.exists_first_parsed (op.rhsTypes found.filter.type) f.value with
    ⟨before, rhs, after, v, htypes, hbefore, hv⟩ | hnone
  · obtain ⟨handler, hhandler, heq⟩ := hcompared before rhs after v htypes hbefore hv
    have hclean : (engine.conditionOf (.leaf ⟨.filter f, token⟩)).notes = [] :=
      congrArg Noted.notes heq
    have hparsed : ∃ rhs ∈ op.rhsTypes found.filter.type,
        (engine.parseValue? rhs f.value).isSome = true :=
      ⟨rhs, by simp [htypes], by simp [hv]⟩
    refine ⟨iff_of_true hclean hparsed, hcompared, hnever, fun rhs' v' hcoerced hunhandled => ?_⟩
    have htaken := hcoerced.symm.trans (coerce?_of_listed hparser htypes hbefore hv)
    obtain ⟨rfl, rfl⟩ := Prod.mk.inj (Option.some.inj htaken)
    cases (Operator.resolve?_of_listed hhandler).symm.trans hunhandled
  · have hunparsed : ¬ ∃ rhs ∈ op.rhsTypes found.filter.type,
        (engine.parseValue? rhs f.value).isSome = true := by
      rintro ⟨rhs, hmem, hsome⟩
      simp [hnone rhs hmem] at hsome
    exact ⟨iff_of_false (hnever hnone).2 hunparsed, hcompared, hnever, fun _ _ _ _ => hnone⟩

end Reader

/-- The filter `n~x` of an engine whose operator `~` compares integers, and has
a fallback for what is no integer: the text is compared as it stands. -/
theorem coerced_value_of_the_fallback :
    let exact : Handler := { holds := fun _ _ _ => false }
    let fallback : Handler := { holds := fun _ _ _ => true }
    let op := (({ token := "~" } : Operator).addHandler .integer .integer exact).addHandler
      .any .any fallback
    let engine : Engine Int64 := (addFilter
      { lexicon := .ofTable ((OperatorTable.empty.insert? op).getD .empty) }
      (.ofGetter "n" id)).1
    let f : FilterExpression := { name := "n", operator := "~", value := "x" }
    op.rhsTypes .integer = [.integer, .any] ∧ ∃ condition,
      (engine.conditionOf (.leaf ⟨.filter f, default⟩)).notes = [] ∧
        engine.conditionOf (.leaf ⟨.filter f, default⟩) = pure condition ∧
          (condition.holds 7).value = true := by
  intro exact fallback op engine f
  have hfound : engine.findFilter? f.name = some { filter := .ofGetter "n" id } :=
    findFilter?_of_single rfl (by decide +kernel)
  obtain ⟨hclean, hcompared, -, -⟩ := coerced_values_are_handled default hfound rfl rfl rfl rfl
  obtain ⟨handler, hhandler, hcompiled⟩ :=
    hcompared [.integer] .any [] (.string "x") rfl (by decide +kernel) rfl
  obtain rfl : fallback = handler := Option.some.inj hhandler
  exact ⟨rfl, _, hclean.mpr ⟨.any, List.mem_pair.mpr (.inr rfl), rfl⟩, hcompiled, rfl⟩

end Engine

end FilterQuery
