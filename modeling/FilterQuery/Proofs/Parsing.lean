import FilterQuery.Query
import FilterQuery.Proofs.Lowering

/-!
# Parsing

The lexemes of a text are accepted exactly if the grammar of queries derives a
tree from them, or if there are none; and the graph that is made of them then
holds that tree.  Groups may not be empty, as those that the scanner finds never
are.
-/

namespace FilterQuery

open FilterQuery.Graph Grammar Draft

/-- **Parsing accepts exactly the grammar and builds exactly its tree.**  No
error of syntax is reported, on the way to the graph or on the way to its
evaluation, if and only if the lexemes are derivable or there are none.  The
graph of a derivation holds its tree, with the operands in text order. -/
theorem parses_exactly_the_grammar {α : Type} (engine : Engine α) (text : String)
    (ls : List Lexeme) (hfilled : AllFilled ls) :
    let draft := Draft.ofLexemes engine.knowledge text ls
    (Clean (draft.errors ++ draft.evaluation.notes) ↔ ls = [] ∨ ∃ t, Disjunction text ls t) ∧
      (ls = [] → draft.graph.tree? = none) ∧
      ∀ t, Disjunction text ls t →
        leaves t = operandsOf ls ∧ ∃ s, Holds draft.graph s ∧ s.map Spot.content = t := by
  intro draft
  have hderived : ∀ t, Disjunction text ls t → ∃ s, Holds draft.graph s ∧ s.map Spot.content = t ∧
      (∀ spot ∈ s.preorder, spot.skipped = engine.knowledge.skips spot.kind) ∧
      draft.errors = engine.knowledge.faultsOf ls := fun _ ht => ofLexemes_derived ht
  refine ⟨⟨fun hclean => ?_, ?_⟩, ?_, fun t ht => ⟨ht.leaves_eq, ?_⟩⟩
  · exact derivable_of_clean hfilled (Clean.append.mp hclean).1
  · rintro (rfl | ⟨t, ht⟩)
    · obtain ⟨hroot, herrors⟩ : draft.graph.root = none ∧ draft.errors = [] := ofLexemes_nil
      have hempty : draft.evaluation.notes = [] := by
        rw [Draft.evaluation, herrors, if_neg (by simp),
          evaluation_of_prune_none (by simp [tree?, hroot])]
        rfl
      rw [herrors, hempty]
      simp [Clean]
    · obtain ⟨s, hholds, rfl, hskipped, herrors⟩ := hderived t ht
      refine Clean.append.mpr ⟨fun e he => ?_, fun e he => ?_⟩
      · rw [herrors] at he
        rw [Knowledge.faultsOf_semantic engine.knowledge_isSemantic ls e he]
        decide
      · rw [Draft.evaluation] at he
        split at he
        · simp at he
        · rw [hholds.evaluation_semantic ht.isQueryTree hskipped e he]
          decide
  · rintro rfl
    have hroot : draft.graph.root = none := ofLexemes_nil.1
    rw [tree?, hroot]
    rfl
  · obtain ⟨s, hholds, hs, -, -⟩ := hderived t ht
    exact ⟨s, hholds, hs⟩

/-- The text `a (b or c)`: the `and` between the operand and the group is left
out. -/
theorem parses_operand_beside_group :
    let a : Content := ⟨.search { text := "a" }, ⟨"a", 0, 1⟩⟩
    let b : Content := ⟨.search { text := "b" }, ⟨"b", 3, 1⟩⟩
    let c : Content := ⟨.search { text := "c" }, ⟨"c", 8, 1⟩⟩
    let ls : List Lexeme :=
      [.word { text := "a" } a.token,
        .group [.word { text := "b" } b.token, .or ⟨"or", 5, 2⟩, .word { text := "c" } c.token]
          ⟨"(b or c)", 2, 8⟩]
    AllFilled ls ∧
      ∃ s, Holds (Draft.ofLexemes ({} : Engine Unit).knowledge "a (b or c)" ls).graph s ∧
        s.map Spot.content =
          .node ⟨.and, ⟨" ", 1, 1⟩⟩
            [.leaf a, .node ⟨.group, ⟨"(b or c)", 2, 8⟩⟩
              [.node ⟨.or, ⟨"or", 5, 2⟩⟩ [.leaf b, .leaf c]]] := by
  intro a b c ls
  have hfilled : AllFilled ls := by simp [ls, AllFilled, IsFilled]
  have hgap : gap "a (b or c)" [.word { text := "a" } a.token] ls.tail = ⟨" ", 1, 1⟩ := by
    decide
  have hbody : Disjunction "a (b or c)"
      [.word { text := "b" } b.token, .or ⟨"or", 5, 2⟩, .word { text := "c" } c.token]
      (.node ⟨.or, ⟨"or", 5, 2⟩⟩ [.leaf b, .leaf c]) :=
    .or _ (.single (.single (.operand (.word _ _)))) (.single (.operand (.word _ _)))
  have hwhole : Disjunction "a (b or c)" ls _ :=
    .single (.omitted (.single (.operand (.word _ _))) (.operand (.group ⟨"(b or c)", 2, 8⟩ hbody)))
  obtain ⟨-, s, hholds, hs⟩ :=
    (parses_exactly_the_grammar ({} : Engine Unit) "a (b or c)" ls hfilled).2.2 _ hwhole
  refine ⟨hfilled, s, hholds, hs.trans ?_⟩
  rw [← hgap]
  rfl

end FilterQuery
