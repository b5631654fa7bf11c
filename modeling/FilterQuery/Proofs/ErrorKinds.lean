import FilterQuery.Proofs.Compiling
import FilterQuery.Proofs.DraftedTokens

/-!
# Kinds of errors

An error is internal if a graph is not what its operations promise.  Neither
scanning nor drafting ever reports one, whatever the text; both say what is
wrong with the text itself.  Compiling does so only for nodes that are no
conditions and no plans: in a tree of the shape to be evaluated there are none,
since a nested query out of place is an error of meaning.
-/

namespace FilterQuery

/-- The error is about the query, and not about its graph. -/
def QueryError.IsExternal (e : QueryError) : Prop := e.kind ≠ .internal

/-- An error is about the query if its cause is. -/
theorem QueryError.isExternal_about {cause : Cause} (h : cause.kind ≠ .internal) (token : Token) :
    (QueryError.about cause token).IsExternal := h

/-- The cause is that parts of the query do not go together. -/
def Cause.isMixture : Cause → Bool
  | mixedOperations | nestedQueryAsCondition => true
  | _ => false

/-- The cause lies in what one part of the query means by itself. -/
structure Cause.IsOfLeaf (cause : Cause) : Prop where
  kind : cause.kind = .semantic
  isMixture : cause.isMixture = false

/-- All of the errors are about the query. -/
def AllExternal (es : List QueryError) : Prop := ∀ e ∈ es, e.IsExternal

namespace AllExternal

variable {es fs : List QueryError}

theorem nil : AllExternal [] := fun _ he => absurd he List.not_mem_nil

/-- Errors about the query may follow each other. -/
theorem append (h : AllExternal es) (h' : AllExternal fs) : AllExternal (es ++ fs) := by
  intro e he
  rcases List.mem_append.mp he with he | he
  · exact h e he
  · exact h' e he

/-- One error about the query is a list of them. -/
theorem singleton {e : QueryError} (h : e.IsExternal) : AllExternal [e] := by
  intro e' he'
  obtain rfl := List.mem_singleton.mp he'
  exact h

/-- Errors of meaning are about the query. -/
theorem of_semantic (h : ∀ e ∈ es, e.kind = .semantic) : AllExternal es := by
  intro e he hkind
  cases (h e he).symm.trans hkind

end AllExternal

/-- What fails at a delimiter fails because of the text. -/
theorem QueryError.IsAtDelimiter.isExternal {position : Nat} {cs : List Char} {e : QueryError}
    (h : e.IsAtDelimiter position cs) : e.IsExternal := by
  intro hinternal
  cases h with
  | brace _ _ _ _ _ kind => cases kind.symm.trans hinternal
  | delimiter _ _ _ _ _ _ _ kind => cases kind.symm.trans hinternal

/-- Tokens of any sort make errors about the query. -/
theorem handsOn_isExternal (text : String) :
    HandsOn text (fun _ => True) QueryError.IsExternal where
  nowhere := trivial
  gap _ _ _ _ := trivial
  about _ token _ hcause := QueryError.isExternal_about hcause token

/-- **Drafting reports what is wrong with the text.** -/
theorem Draft.ofLexemes_externally {known : Knowledge} (hknown : known.IsSemantic) (text : String)
    (ls : List Lexeme) : AllExternal (ofLexemes known text ls).errors :=
  (ofLexemes_tokens (handsOn_isExternal text) hknown fun _ _ => trivial).errors

namespace Engine

variable {α β γ : Type} {engine : Engine α}

/-- All that is noted is of this sort. -/
def NotesAll (p : QueryError → Prop) (x : Compiled β) : Prop := ∀ e ∈ x.notes, p e

namespace NotesAll

variable {p : QueryError → Prop}

/-- A value notes nothing. -/
theorem pure (b : β) : NotesAll p (pure b : Compiled β) := by
  intro e he
  cases he

/-- Work after work notes what both do. -/
theorem bind {x : Compiled β} {next : β → Compiled γ} (h : NotesAll p x)
    (hnext : ∀ b, NotesAll p (next b)) : NotesAll p (x >>= next) := by
  intro e he
  rcases List.mem_append.mp he with he | he
  · exact h e he
  · exact hnext _ e he

/-- A failure notes its own error. -/
theorem failing {cause : Cause} {token : Token} (h : p (QueryError.about cause token)) (stub : β) :
    NotesAll p (failing cause token stub) := by
  intro e he
  obtain rfl := List.mem_singleton.mp he
  exact h

end NotesAll

/-- All that is noted has a cause of this sort. -/
def NotesOnly (p : Cause → Prop) (x : Compiled β) : Prop := ∀ e ∈ x.notes, p e.cause

namespace NotesOnly

variable {p p' : Cause → Prop}

theorem pure (b : β) : NotesOnly p (pure b : Compiled β) := NotesAll.pure b

/-- Work after work has the causes of both. -/
theorem bind {x : Compiled β} {next : β → Compiled γ} (h : NotesOnly p x)
    (hnext : ∀ b, NotesOnly p (next b)) : NotesOnly p (x >>= next) := NotesAll.bind h hnext

/-- A failure has its own cause. -/
theorem failing {cause : Cause} (h : p cause) (token : Token) (stub : β) :
    NotesOnly p (failing cause token stub) := NotesAll.failing h stub

/-- Causes of a narrower sort are of the wider one. -/
theorem mono {x : Compiled β} (h : NotesOnly p x) (hp : ∀ cause, p cause → p' cause) :
    NotesOnly p' x := fun e he => hp _ (h e he)

end NotesOnly

/-- What is noted is an error of meaning. -/
abbrev NotesMeaning (x : Compiled β) : Prop := NotesOnly (·.kind = .semantic) x

/-- What is noted is an error of meaning in a leaf by itself. -/
abbrev NotesLeaves (x : Compiled β) : Prop := NotesOnly Cause.IsOfLeaf x

/-- Errors that leaves can have are errors of meaning. -/
theorem NotesOnly.meaning {x : Compiled β} (h : NotesLeaves x) : NotesMeaning x :=
  h.mono fun _ hcause => hcause.kind

section Leaves

variable {p : QueryError → Prop} {token : Token}
  (hp : ∀ cause : Cause, cause.IsOfLeaf → p (QueryError.about cause token))

include hp

/-- What is wrong with a parameter is reported at the filter. -/
theorem arguments_notes (found : FoundFilter α) (f : FilterExpression) :
    NotesAll p (engine.arguments found f token) := by
  unfold arguments
  dsimp only
  split
  · exact .pure _
  · exact .failing (hp _ ⟨rfl, rfl⟩) _
  · split
    · exact .pure _
    · exact .failing (hp _ ⟨rfl, rfl⟩) _

/-- What is wrong with an operator is reported at the filter. -/
theorem handlerFor_notes (filter : Filter α) (operator : Option Operator) (rhs : ValueType)
    (name : String) : NotesAll p (handlerFor filter operator rhs token name) := by
  unfold handlerFor
  cases operator with
  | none => exact .failing (hp _ ⟨rfl, rfl⟩) _
  | some op =>
      dsimp only
      split
      · exact .pure _
      · exact .failing (hp _ ⟨rfl, rfl⟩) _

/-- What is wrong with a filter is reported at its token. -/
theorem compileFilter_notes (f : FilterExpression) :
    NotesAll p (engine.compileFilter f token) := by
  unfold compileFilter
  cases engine.findFilter? f.name with
  | none =>
      dsimp only
      split
      · exact .pure _
      · exact .pure _
  | some found =>
      refine (arguments_notes hp found f).bind fun args => ?_
      cases args with
      | none => exact .pure _
      | some args =>
          dsimp only
          split
          · exact .failing (hp _ ⟨rfl, rfl⟩) _
          · split
            · exact .pure _
            · refine (handlerFor_notes hp _ _ _ _).bind fun handler => ?_
              cases handler with
              | none => exact .pure _
              | some handler => exact .pure _

/-- What is wrong with a filter over a nested query is reported at its token or
in the query. -/
theorem compileNestedFilter_notes (f : FilterExpression) {source : Compiled (Plan α)}
    (hsource : NotesAll p source) :
    NotesAll p (engine.compileNestedFilter f token source) := by
  unfold compileNestedFilter
  cases engine.findFilter? f.name with
  | none => exact .pure _
  | some found =>
      dsimp only
      split
      · exact .failing (hp _ ⟨rfl, rfl⟩) _
      · refine (arguments_notes hp found f).bind fun args => ?_
        cases args with
        | none => exact .pure _
        | some args =>
            refine hsource.bind fun plan => ?_
            split
            · exact .pure _
            · split
              · exact .failing (hp _ ⟨rfl, rfl⟩) _
              · exact .pure _

/-- What is wrong with a word is reported at its token. -/
theorem compileSearch_notes (word : SearchExpression) :
    NotesAll p (engine.compileSearch word token) := by
  unfold compileSearch
  split
  · exact .failing (hp _ ⟨rfl, rfl⟩) _
  · exact .pure _

/-- What is wrong with a nested query is reported at its token. -/
theorem compileNested_notes (q : NestedExpression) :
    NotesAll p (engine.compileNested q token) := by
  unfold compileNested
  split
  · exact .failing (hp _ ⟨rfl, rfl⟩) _
  · exact .pure _

end Leaves

variable (token : Token)

/-- A filter has only errors that leaves can have. -/
theorem compileFilter_leaves (f : FilterExpression) :
    NotesLeaves (engine.compileFilter f token) := compileFilter_notes (fun _ h => h) f

/-- A filter over a nested query has only errors that leaves can have, if its
source has. -/
theorem compileNestedFilter_leaves (f : FilterExpression) {source : Compiled (Plan α)}
    (hsource : NotesLeaves source) :
    NotesLeaves (engine.compileNestedFilter f token source) :=
  compileNestedFilter_notes (fun _ h => h) f hsource

/-- A word has only errors that leaves can have. -/
theorem compileSearch_leaves (word : SearchExpression) :
    NotesLeaves (engine.compileSearch word token) := compileSearch_notes (fun _ h => h) word

/-- A nested query has only errors that leaves can have. -/
theorem compileNested_leaves (q : NestedExpression) :
    NotesLeaves (engine.compileNested q token) := compileNested_notes (fun _ h => h) q

/-- What compiles to a condition is no set operand. -/
theorem IsConditionNode.isSetOperand {kind : NodeKind} {ts : List β}
    (h : IsConditionNode kind ts) : kind.isSetOperand = false := by
  cases h <;> rfl

/-- An aggregator that is not known is an error in a leaf. -/
theorem planOf_aggregator_leaves (name : String) {t : Tree Graph.Content}
    (ht : NotesLeaves (engine.planOf t)) :
    NotesLeaves (engine.planOf (.node ⟨.aggregator name, token⟩ [t])) := by
  rw [planOf_aggregator]
  split
  · exact .failing ⟨rfl, rfl⟩ _ _
  · exact ht.bind fun _ => .pure _

end Engine

namespace Graph

open Grammar (IsBlock)
open FilterQuery.Engine (NotesMeaning NotesLeaves)

variable {α : Type} {engine : Engine α} {t : Tree Content}

/-- The block of a filter has only errors that leaves can have. -/
theorem planOf_block_leaves (h : IsBlock t) : NotesLeaves (engine.planOf t) := by
  cases h with
  | query q token => exact Engine.compileNested_leaves token q
  | aggregator name q token token' =>
      exact Engine.planOf_aggregator_leaves token name
        (Engine.compileNested_leaves token' q)

/-- What is wrong with sets is wrong with a leaf of theirs. -/
theorem IsSetTree.planOf_leaves (h : IsSetTree t) : NotesLeaves (engine.planOf t) := by
  induction h with
  | block h => exact planOf_block_leaves h
  | @intersection token t u _ _ ihl ihr =>
      rw [Engine.planOf_intersection]
      exact ihl.bind fun _ => ihr.bind fun _ => .pure _
  | @union token t u _ _ ihl ihr =>
      rw [Engine.planOf_union]
      exact ihl.bind fun _ => ihr.bind fun _ => .pure _

/-- Sets in the place of a condition are an error of meaning. -/
theorem IsSetTree.conditionOf_meaning (h : IsSetTree t) :
    NotesMeaning (engine.conditionOf t) := by
  obtain ⟨c, ts⟩ := t
  have hoperand : c.kind.isSetOperand = true := h.isSetOperand
  have hshape : ¬ Engine.IsConditionNode c.kind ts :=
    fun hnode => by cases hnode.isSetOperand.symm.trans hoperand
  rw [Engine.conditionOf_eq_notCondition hshape, Engine.notCondition, if_pos hoperand]
  refine .failing ?_ _ _
  rfl

/-- **A tree that is a condition has only errors of meaning.** -/
theorem IsConditionTree.conditionOf_meaning (h : IsConditionTree t) :
    NotesMeaning (engine.conditionOf t) := by
  induction h with
  | @binary kind token t u hkind _ _ ihl ihr =>
      have hboth : ∀ f : Condition α → Condition α → Condition α, NotesMeaning (do
          return f (← engine.conditionOf t) (← engine.conditionOf u)) :=
        fun f => ihl.bind fun _ => ihr.bind fun _ => .pure _
      unfold NodeKind.isBinaryCombinator at hkind
      split at hkind
      · exact hboth .both
      · exact hboth .either
      · cases hkind
  | @not token t _ ih =>
      rw [Engine.conditionOf_not]
      exact ih.bind fun _ => .pure _
  | search s token => exact (Engine.compileSearch_leaves token s).meaning
  | filter f token => exact (Engine.compileFilter_leaves token f).meaning
  | @nestedFilter f token t h =>
      rw [Engine.conditionOf_nestedFilter]
      exact (Engine.compileNestedFilter_leaves token f (planOf_block_leaves h)).meaning
  | set h => exact h.conditionOf_meaning

/-- **A tree of the shape to be evaluated can be compiled as far as its graph is
concerned.** -/
theorem IsEvaluationTree.planOf_meaning (h : IsEvaluationTree t) :
    NotesMeaning (engine.planOf t) := by
  cases h with
  | set h => exact h.planOf_leaves.meaning
  | @select token t h =>
      rw [Engine.planOf_select]
      exact h.conditionOf_meaning.bind fun _ => .pure _

end Graph

end FilterQuery
