import FilterQuery.Query
import FilterQuery.Proofs.Lowering

/-!
# Empty groups

The scanner finds no pair of parentheses with nothing between them, but a draft
may be made of any lexemes.  A pair in which nothing is left has no node, so
that it may as well not have been written: the draft of the lexemes without such
pairs is the same.  So whatever the lexemes are, a draft without a fatal error
is empty or holds the tree of a query.
-/

namespace FilterQuery

open FilterQuery.Graph Grammar

mutual

/-- The lexeme without the pairs of parentheses in which nothing is left. -/
def filled? : Lexeme → Option Lexeme
  | .group inner token =>
    match filledAll inner with
    | [] => none
    | left => some (.group left token)
  | l => some l

/-- The lexemes without the pairs of parentheses in which nothing is left. -/
def filledAll : List Lexeme → List Lexeme
  | [] => []
  | l :: ls => (filled? l).toList ++ filledAll ls

end

mutual

/-- What is left of a lexeme without its vacant groups is filled. -/
theorem isFilled_of_filled? : ∀ {l l' : Lexeme}, filled? l = some l' → IsFilled l'
  | .group inner token, l', h => by
      have hinner := allFilled_filledAll inner
      rw [filled?] at h
      split at h
      · cases h
      · next hne =>
          obtain rfl := Option.some.inj h
          exact ⟨hne, hinner⟩
  | .and _, _, h | .or _, _, h | .not _, _, h | .nested _, _, h | .filter .., _, h
  | .toggle .., _, h | .comment .., _, h | .word .., _, h => by
      obtain rfl := Option.some.inj h
      trivial

/-- What is left of lexemes is filled. -/
theorem allFilled_filledAll : ∀ ls : List Lexeme, AllFilled (filledAll ls)
  | [] => trivial
  | l :: ls => by
      have hrest := allFilled_filledAll ls
      rw [filledAll]
      cases hl : filled? l with
      | none => exact hrest
      | some l' => exact ⟨isFilled_of_filled? hl, hrest⟩

end

mutual

/-- Nothing that says anything is left out. -/
theorem operands_filled? : ∀ l : Lexeme, operandsOf (filled? l).toList = operands l
  | .group inner token => by
      rw [filled?, operands, ← operandsOf_filledAll inner]
      cases filledAll inner with
      | nil => rfl
      | cons l ls => exact List.append_nil _
  | .and _ | .or _ | .not _ | .nested _ | .filter .. | .toggle .. | .comment .. | .word .. =>
      List.append_nil _

/-- Vacant groups have no operands. -/
theorem operandsOf_filledAll : ∀ ls : List Lexeme, operandsOf (filledAll ls) = operandsOf ls
  | [] => rfl
  | l :: ls => by
      rw [filledAll, operandsOf_append, operands_filled? l, operandsOf_filledAll ls, operandsOf]

end

namespace Draft

variable {known : Knowledge} {text : String} {ls : List Lexeme}

/-- Without operands there is nothing to compose. -/
theorem compose_nil : compose text [] = pure none := by
  funext d
  simp [compose, joinAdjacent, absorb, combine, combineItems, combineNot, combineBinaryFrom, bind,
    StateT.bind, pure, StateT.pure, modify, modifyGet, MonadStateOf.modifyGet, StateT.modifyGet]

mutual

/-- **Nothing is drafted for an empty group.** -/
theorem addLexeme_filled : ∀ l : Lexeme,
    addLexeme known text l = (filled? l).elim (pure none) (addLexeme known text)
  | .group inner token => by
      have hinner := addLexemes_filled inner
      rw [addLexeme, filled?, hinner]
      split
      · next hnone =>
          rw [hnone, addLexemes, pure_bind, compose_nil, pure_bind]
          rfl
      · rw [Option.elim_some, addLexeme]
  | .and _ | .or _ | .not _ | .nested _ | .filter .. | .toggle .. | .comment .. | .word .. => rfl

/-- Vacant groups leave no trace in a draft. -/
theorem addLexemes_filled : ∀ ls : List Lexeme,
    addLexemes known text ls = addLexemes known text (filledAll ls)
  | [] => rfl
  | l :: ls => by
      rw [addLexemes, addLexeme_filled l, addLexemes_filled ls, filledAll]
      cases filled? l with
      | none => simp
      | some l' => rw [Option.elim_some, Option.toList_some, List.singleton_append, addLexemes]

end

/-- So the draft of lexemes is that of the filled ones. -/
theorem ofLexemes_filled (known : Knowledge) (text : String) (ls : List Lexeme) :
    ofLexemes known text ls = ofLexemes known text (filledAll ls) := by
  rw [ofLexemes, addLexemes_filled]
  rfl

/-- A draft without a fatal error is that of no lexemes, or of derivable
ones. -/
theorem derivable_of_no_fatal
    (hclean : ∀ e ∈ (ofLexemes known text ls).errors, e.isFatal = false) :
    filledAll ls = [] ∨ ∃ t, Disjunction text (filledAll ls) t := by
  rw [ofLexemes_filled] at hclean
  have hsyntactic : Clean (ofLexemes known text (filledAll ls)).errors := by
    intro e he hkind
    have hfatal := hclean e he
    rw [QueryError.isFatal, hkind] at hfatal
    cases hfatal
  exact derivable_of_clean (allFilled_filledAll ls) hsyntactic

/-- **A draft without a fatal error is empty, or holds the tree of a query.** -/
theorem tree_of_clean (hclean : ∀ e ∈ (ofLexemes known text ls).errors, e.isFatal = false) :
    (ofLexemes known text ls).graph.root = none ∨
      ∃ u, (ofLexemes known text ls).graph.tree? = some u ∧ IsQueryTree (u.map Place.content) ∧
        Marked known u := by
  rw [ofLexemes_filled]
  rcases derivable_of_no_fatal hclean with hnone | ⟨t, ht⟩
  · rw [hnone]
    exact .inl ofLexemes_nil.1
  · obtain ⟨u, hu, rfl, hmarked, -⟩ := derived_tree known ht
    exact .inr ⟨u, hu, ht.isQueryTree, hmarked⟩

/-- The errors of a draft without a fatal one are about the names in it. -/
theorem cause_of_no_fatal (hclean : ∀ e ∈ (ofLexemes known text ls).errors, e.isFatal = false)
    {p : Cause → Prop} (hblames : known.Blames p) :
    ∀ e ∈ (ofLexemes known text ls).errors, p e.cause := by
  rw [ofLexemes_filled]
  rcases derivable_of_no_fatal hclean with hnone | ⟨t, ht⟩
  · rw [hnone, ofLexemes_nil.2]
    simp
  · obtain ⟨-, -, -, -, herrors⟩ := derived_tree known ht
    rw [herrors]
    exact hblames.faultsOf _

/-- What pruning leaves of a draft without a fatal error. -/
theorem isPruned_of_no_fatal (hclean : ∀ e ∈ (ofLexemes known text ls).errors, e.isFatal = false)
    {v : Tree Content} (hv : (ofLexemes known text ls).graph.tree?.bind prune = some v) :
    IsPruned v := by
  rcases tree_of_clean hclean with hroot | ⟨u, hu, htree, hmarked⟩
  · rw [tree?, hroot] at hv
    cases hv
  · rw [hu] at hv
    exact Marked.prune_isPruned htree hmarked rfl v hv

/-- Without a fatal error, what pruning leaves is evaluated. -/
theorem evaluation_of_clean (hclean : ∀ e ∈ (ofLexemes known text ls).errors, e.isFatal = false) :
    let d := ofLexemes known text ls
    d.graph.tree?.bind prune = none ∧ d.evaluation = pure {} ∨
      ∃ v, d.graph.tree?.bind prune = some v ∧ IsConditionTree v ∧
        d.evaluation = ⟨ofTree (enumerated (promote v).value), (promote v).notes⟩ := by
  intro d
  have hevaluation : d.evaluation = d.graph.evaluation := by
    rw [Draft.evaluation, if_neg]
    simpa using hclean
  rw [hevaluation]
  rcases tree_of_clean hclean with hroot | ⟨u, hu, htree, hmarked⟩
  · have hnone : d.graph.tree?.bind prune = none := by rw [tree?, hroot]; rfl
    exact .inl ⟨hnone, evaluation_of_prune_none hnone⟩
  · rw [hu, Option.bind_some]
    rcases hmarked.evaluation_cases hu htree with hnone | hsome
    · exact .inl hnone
    · exact .inr hsome

/-- What is evaluated for any lexemes is nothing, or what is left of a
condition. -/
theorem evaluation_cases (known : Knowledge) (text : String) (ls : List Lexeme) :
    (ofLexemes known text ls).evaluation = pure {} ∨
      ∃ v, IsConditionTree v ∧ (ofLexemes known text ls).evaluation =
        ⟨ofTree (enumerated (promote v).value), (promote v).notes⟩ := by
  by_cases hfatal : (ofLexemes known text ls).errors.any (·.isFatal) = true
  · rw [Draft.evaluation, if_pos hfatal]
    exact .inl rfl
  · rcases evaluation_of_clean (by simpa using hfatal) with ⟨-, heq⟩ | ⟨v, -, hv, heq⟩
    · exact .inl heq
    · exact .inr ⟨v, hv, heq⟩

end Draft

end FilterQuery
