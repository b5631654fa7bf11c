import FilterQuery.Proofs.Equivalence
import FilterQuery.Proofs.Passes

/-!
# Meaning under rewriting

A tree that a pass rewrites may be replaced by the rewritten one: each rewriting
of a node keeps the condition that the node compiles to, and hence the passes
keep what the whole tree compiles to, however far down they get.
-/

namespace FilterQuery

open FilterQuery.Graph

variable {α : Type} [BEq α] {engine : Engine α}

namespace StandsFor

/-- A tree that is no plan may be replaced if this keeps the condition. -/
theorem of_condition {kind : NodeKind} {token : Token} {ts : List (Tree Content)}
    {t : Tree Content} (hkind : kind.isEnumerable = false)
    (h : Compiles Condition.Agrees (engine.conditionOf (.node ⟨kind, token⟩ ts))
      (engine.conditionOf t)) :
    StandsFor engine (.node ⟨kind, token⟩ ts) t := by
  refine ⟨h, fun hclean => ?_⟩
  have hshape := Engine.isPlanNode_of_clean hclean
  dsimp only at hshape
  cases hshape <;> cases hkind

/-- The negation of a conjunction is the disjunction of the negations. -/
theorem not_and (token token' : Token) (a b : Tree Content) :
    StandsFor engine (.node ⟨.not, token⟩ [.node ⟨.and, token'⟩ [a, b]])
      (.node ⟨.or, token'⟩ [.node ⟨.not, token⟩ [a], .node ⟨.not, token⟩ [b]]) := by
  refine of_condition rfl fun hclean => ?_
  simp only [Engine.conditionOf_not, Engine.conditionOf_and, Engine.conditionOf_or,
    Noted.notes_bind, Noted.notes_pure, Noted.value_bind, Noted.value_pure, List.append_nil,
    List.append_eq_nil_iff] at hclean ⊢
  refine ⟨hclean, fun e => ?_⟩
  simp only [Condition.negation_value, Condition.both_value, Condition.either_value, Bool.not_and]

/-- The negation of a disjunction is the conjunction of the negations. -/
theorem not_or (token token' : Token) (a b : Tree Content) :
    StandsFor engine (.node ⟨.not, token⟩ [.node ⟨.or, token'⟩ [a, b]])
      (.node ⟨.and, token'⟩ [.node ⟨.not, token⟩ [a], .node ⟨.not, token⟩ [b]]) := by
  refine of_condition rfl fun hclean => ?_
  simp only [Engine.conditionOf_not, Engine.conditionOf_and, Engine.conditionOf_or,
    Noted.notes_bind, Noted.notes_pure, Noted.value_bind, Noted.value_pure, List.append_nil,
    List.append_eq_nil_iff] at hclean ⊢
  refine ⟨hclean, fun e => ?_⟩
  simp only [Condition.negation_value, Condition.both_value, Condition.either_value, Bool.not_or]

/-- A double negation may stand for what is negated twice. -/
theorem not_not (token token' : Token) (t : Tree Content) :
    StandsFor engine (.node ⟨.not, token⟩ [.node ⟨.not, token'⟩ [t]]) t := by
  refine of_condition rfl fun hclean => ?_
  simp only [Engine.conditionOf_not, Noted.notes_bind, Noted.notes_pure, Noted.value_bind,
    Noted.value_pure, List.append_nil] at hclean ⊢
  refine ⟨hclean, fun e => ?_⟩
  simp only [Condition.negation_value, Bool.not_not]

/-- The operands of a conjunction may be exchanged. -/
theorem and_comm (token : Token) (a b : Tree Content) :
    StandsFor engine (.node ⟨.and, token⟩ [a, b]) (.node ⟨.and, token⟩ [b, a]) := by
  refine of_condition rfl fun hclean => ?_
  simp only [Engine.conditionOf_and, Noted.notes_bind, Noted.notes_pure, Noted.value_bind,
    Noted.value_pure, List.append_nil, List.append_eq_nil_iff] at hclean ⊢
  refine ⟨hclean.symm, fun e => ?_⟩
  simp only [Condition.both_value, Bool.and_comm]

/-- The operands of a disjunction may be exchanged. -/
theorem or_comm (token : Token) (a b : Tree Content) :
    StandsFor engine (.node ⟨.or, token⟩ [a, b]) (.node ⟨.or, token⟩ [b, a]) := by
  refine of_condition rfl fun hclean => ?_
  simp only [Engine.conditionOf_or, Noted.notes_bind, Noted.notes_pure, Noted.value_bind,
    Noted.value_pure, List.append_nil, List.append_eq_nil_iff] at hclean ⊢
  refine ⟨hclean.symm, fun e => ?_⟩
  simp only [Condition.either_value, Bool.or_comm]

/-- **Every rewriting keeps what a tree may stand for.** -/
theorem allowsRewriting : AllowsRewriting (StandsFor engine) where
  refl := refl
  trans := trans
  node := node
  deMorgan hdual token token' a b := by
    unfold dual? at hdual
    split at hdual
    · obtain rfl := Option.some.inj hdual
      exact not_and token token' a b
    · obtain rfl := Option.some.inj hdual
      exact not_or token token' a b
    · cases hdual
  comm hbinary token a b := by
    unfold NodeKind.isBinaryCombinator at hbinary
    split at hbinary
    · exact and_comm token a b
    · exact or_comm token a b
    · cases hbinary
  notNot := not_not

end StandsFor

end FilterQuery
