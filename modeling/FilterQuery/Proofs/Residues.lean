import FilterQuery.Graph.Rendering
import FilterQuery.Proofs.Lowering
import FilterQuery.Proofs.WellFormed
import FilterQuery.Query

/-!
# What is left of a tree

Tokens say where a node was written and have no part in what is evaluated.
Without them, what pruning leaves of a combinator follows from what it leaves of
the operands, and trees that leave the same nodes are promoted and selected by
in the same way.  So whatever is to be shown about how a query is written can be
shown operand by operand.
-/

namespace FilterQuery.Graph

open Grammar (IsQueryTree Disjunction)

/-- The places of a tree, those marked that are to be skipped. -/
def marked (known : Knowledge) (t : Tree Content) : Tree Place :=
  t.map fun c => ⟨0, { kind := c.kind, token := c.token, skipped := known.skips c.kind }⟩

/-- The kinds of the nodes that pruning leaves of a tree. -/
def residue (known : Knowledge) (t : Tree Content) : Option (Tree NodeKind) :=
  (prune (marked known t)).map (Tree.map (·.kind))

section Residue

variable {known : Knowledge} {u : Tree Place} {t t' : Tree Content}

/-- Marking places keeps their contents. -/
theorem content_marked (t : Tree Content) : (marked known t).map Place.content = t := by
  rw [marked, Tree.map_map]
  induction t with
  | node c ts ih =>
      rw [Tree.map_node]
      congr 1
      exact (List.map_congr_left ih).trans (List.map_id ts)

/-- The marked places of a tree are those to be skipped. -/
theorem marked_isMarked (known : Knowledge) (t : Tree Content) :
    Marked known (marked known t) := by
  intro p hp
  rw [marked, Tree.preorder_map] at hp
  obtain ⟨c, -, rfl⟩ := List.mem_map.mp hp
  rfl

/-- **Pruning looks at contents and marks only.** -/
theorem Marked.prune_eq (hm : Marked known u) :
    prune u = prune (marked known (u.map Place.content)) := by
  induction u with
  | node p ts ih =>
      have hskipped : p.node.skipped = known.skips p.kind := hm p (by simp)
      have hbelow : ∀ t ∈ ts, prune t = prune (marked known (t.map Place.content)) :=
        fun t ht => ih t ht fun q hq => hm q (Tree.mem_preorder_of_child ht hq)
      let q : Place := ⟨0, ⟨p.kind, p.token, [], none, known.skips p.kind⟩⟩
      have hmarked : marked known ((Tree.node p ts).map Place.content) =
          .node q (ts.map fun t => marked known (t.map Place.content)) := by
        simp only [marked, Tree.map_node, List.map_map]
        rfl
      have hall : pruneAll (ts.map fun t => marked known (t.map Place.content)) = pruneAll ts := by
        rw [pruneAll_eq_filterMap, pruneAll_eq_filterMap, List.filterMap_map]
        exact List.filterMap_congr fun t ht => (hbelow t ht).symm
      have hfirst : pruneFirst (ts.map fun t => marked known (t.map Place.content)) =
          pruneFirst ts := by
        cases ts with
        | nil => rfl
        | cons t ts => exact (hbelow t List.mem_cons_self).symm
      rw [hmarked, prune, prune, hskipped, hall, hfirst]
      rfl

/-- What pruning leaves is the residue of the contents. -/
theorem Marked.residue_eq (hm : Marked known u) :
    (prune u).map (Tree.map (·.kind)) = residue known (u.map Place.content) := by
  rw [hm.prune_eq, residue]

/-- Nothing is left of a node to be skipped. -/
theorem residue_skipped {c : Content} {ts : List (Tree Content)} (h : known.skips c.kind = true) :
    residue known (.node c ts) = none := by
  rw [residue, (marked_isMarked known _).prune_skipped (content_marked _) h]
  rfl

/-- A group leaves what is left in it. -/
theorem residue_group (token : Token) :
    residue known (.node ⟨.group, token⟩ [t]) = residue known t := by
  obtain ⟨v, rfl, hv, hprune⟩ :=
    (marked_isMarked known _).prune_group (content_marked (.node ⟨.group, token⟩ [t]))
  rw [← hv.residue_eq, residue, hprune]

/-- A negation leaves the negation of what is left. -/
theorem residue_not (token : Token) :
    residue known (.node ⟨.not, token⟩ [t]) = (residue known t).map fun k => .node .not [k] := by
  obtain ⟨v, rfl, hv, hprune⟩ := (marked_isMarked known _).prune_one
    (content_marked (.node ⟨.not, token⟩ [t])) rfl trivial
  rw [← hv.residue_eq, residue, hprune]
  cases prune v with
  | none => rfl
  | some w => simp [retain, NodeKind.isBinaryCombinator]

/-- Of two operands, one may be all that is left. -/
theorem residue_binary {kind : NodeKind} (hkind : kind.isBinaryCombinator = true) (token : Token) :
    residue known (.node ⟨kind, token⟩ [t, t']) =
      Option.merge (fun k k' => .node kind [k, k']) (residue known t) (residue known t') := by
  have hskips : known.skips kind = false := by
    cases kind <;> first | rfl | cases hkind
  have hretained : IsRetained kind := by
    cases kind <;> trivial
  have hcombinator := isCombinator_of_isBinaryCombinator hkind
  obtain ⟨v, v', rfl, rfl, hv, hv', hprune⟩ := (marked_isMarked known _).prune_two
    (content_marked (.node ⟨kind, token⟩ [t, t'])) hskips hretained
  rw [← hv.residue_eq, ← hv'.residue_eq, residue, hprune]
  cases prune v <;> cases prune v' <;> simp [retain, hkind, hcombinator]

end Residue

/-- Trees with nodes of the same kinds at the same places. -/
def SameKinds (t u : Tree Content) : Prop :=
  t.map (·.kind) = u.map (·.kind)

section SameKinds

variable {t u : Tree Content} {c d : Content} {ts us : List (Tree Content)}

/-- Trees of the same kinds have roots of one kind. -/
theorem SameKinds.label (h : SameKinds t u) : t.label.kind = u.label.kind := by
  have hlabel := congrArg Tree.label h
  rwa [Tree.label_map, Tree.label_map] at hlabel

/-- Trees have the same kinds exactly if their roots and the trees below
have. -/
theorem sameKinds_node : SameKinds (.node c ts) (.node d us) ↔
    c.kind = d.kind ∧ List.Forall₂ SameKinds ts us :=
  Tree.map_eq_map_iff

/-- Lists of such trees have roots of the same kinds. -/
theorem kinds_of_sameKinds (h : List.Forall₂ SameKinds ts us) :
    ts.map (·.label.kind) = us.map (·.label.kind) := by
  induction h with
  | nil => rfl
  | cons hhead _ ih => rw [List.map_cons, List.map_cons, hhead.label, ih]

/-- Nodes of one kind are promoted alike. -/
theorem promoteNode_sameKinds (hkind : c.kind = d.kind) (h : List.Forall₂ SameKinds ts us) :
    SameKinds (promoteNode c ts).value (promoteNode d us).value ∧
      ((promoteNode c ts).notes = [] ↔ (promoteNode d us).notes = []) := by
  have hstays : SameKinds (.node c ts) (.node d us) := sameKinds_node.mpr ⟨hkind, h⟩
  have hkinds := kinds_of_sameKinds h
  have hall := congrArg (List.all · NodeKind.isSetOperand) hkinds
  have hany := congrArg (List.any · NodeKind.isSetOperand) hkinds
  simp only [List.all_map, List.any_map, Function.comp_def] at hall hany
  unfold promoteNode
  rw [hkind]
  cases hoperation : setOperation? d.kind with
  | none => exact ⟨hstays, Iff.rfl⟩
  | some operation =>
      dsimp only
      rw [hall, hany]
      split
      · exact ⟨sameKinds_node.mpr ⟨rfl, h⟩, Iff.rfl⟩
      · split
        · exact ⟨hstays, by simp [Noted.noting]⟩
        · exact ⟨hstays, Iff.rfl⟩

/-- **What is promoted depends on the kinds of the nodes only.** -/
theorem SameKinds.promote (h : SameKinds t u) :
    SameKinds (promote t).value (promote u).value := by
  induction t generalizing u with
  | node c ts ih =>
      obtain ⟨d, us⟩ := u
      obtain ⟨hkind, hbelow⟩ := sameKinds_node.mp h
      rw [(promote_node c ts).1, (promote_node d us).1]
      refine (promoteNode_sameKinds hkind ?_).1
      rw [List.forall₂_map_left_iff, List.forall₂_map_right_iff]
      have hboth := (List.forall₂_and_left ts us).mpr ⟨fun t ht => @ih t ht, hbelow⟩
      exact hboth.imp fun _ _ h => h.1 h.2

/-- Nor do the errors met in promotion depend on more, but for their places. -/
theorem SameKinds.promote_notes (h : SameKinds t u) :
    (Graph.promote t).notes = [] ↔ (Graph.promote u).notes = [] := by
  induction t generalizing u with
  | node c ts ih =>
      obtain ⟨d, us⟩ := u
      obtain ⟨hkind, hbelow⟩ := sameKinds_node.mp h
      have hvalues : List.Forall₂ SameKinds (ts.map fun t => (Graph.promote t).value)
          (us.map fun t => (Graph.promote t).value) := by
        rw [List.forall₂_map_left_iff, List.forall₂_map_right_iff]
        exact hbelow.imp fun _ _ h => h.promote
      have hnotes : (∀ t ∈ ts, (Graph.promote t).notes = []) ↔
          ∀ u ∈ us, (Graph.promote u).notes = [] := by
        clear h hvalues
        induction hbelow with
        | nil => simp
        | cons hhead _ ihtail =>
            rw [List.forall_mem_cons, List.forall_mem_cons,
              ih _ List.mem_cons_self hhead, ihtail fun t ht => ih t (List.mem_cons_of_mem _ ht)]
      rw [(promote_node c ts).2, (promote_node d us).2, List.append_eq_nil_iff,
        List.append_eq_nil_iff, List.flatMap_eq_nil_iff, List.flatMap_eq_nil_iff, hnotes,
        (promoteNode_sameKinds hkind hvalues).2]

/-- Trees of the same kinds are made enumerable alike. -/
theorem SameKinds.enumerated (h : SameKinds t u) : SameKinds (enumerated t) (enumerated u) := by
  unfold Graph.enumerated
  rw [h.label]
  split
  · exact h
  · exact sameKinds_node.mpr ⟨rfl, .cons h .nil⟩

end SameKinds

/-- The kinds of the nodes of a graph, as a tree. -/
def kinds? (g : Graph) : Option (Tree NodeKind) := g.tree?.map (Tree.map (·.kind))

/-- The graph of a tree has the kinds of its nodes. -/
theorem kinds?_ofTree (t : Tree Content) : (ofTree t).kinds? = some (t.map (·.kind)) := by
  have hsaid := ofTree_said? t
  obtain ⟨u, hu, rfl⟩ := Option.map_eq_some_iff.mp hsaid
  rw [kinds?, hu, Option.map_some, Tree.map_map]
  rfl

/-- A rendering shows the kinds of the nodes. -/
theorem render_eq_kinds? (g : Graph) : g.render = g.kinds?.elim "<empty>" renderTree := by
  rw [render, kinds?]
  cases g.tree? <;> rfl

/-- Graphs with nodes of the same kinds are written in the same way. -/
theorem render_eq_of_kinds? {g g' : Graph} (h : g.kinds? = g'.kinds?) : g.render = g'.render := by
  rw [render_eq_kinds?, render_eq_kinds?, h]

end FilterQuery.Graph

namespace FilterQuery.Draft

open FilterQuery.Graph Grammar

/-- What is evaluated for derivable lexemes is what is left of their tree,
promoted. -/
theorem evaluation_of_derived {known : Knowledge} (hsemantic : known.IsSemantic) {text : String}
    {ls : List Lexeme} {t : Tree Content} (ht : Disjunction text ls t) :
    let draft := ofLexemes known text ls
    Clean (draft.errors ++ draft.evaluation.notes) ∧
      (residue known t = none ∧ draft.evaluation.value = {} ∨
        ∃ v : Tree Content, residue known t = some (v.map (·.kind)) ∧
          draft.evaluation.value = ofTree (enumerated (promote v).value)) := by
  intro draft
  obtain ⟨u, hu, rfl, hmarked, herrors⟩ := derived_tree known ht
  have hfaults : ∀ e ∈ draft.errors, e.kind = .semantic := fun e he =>
    known.faultsOf_semantic hsemantic ls e (herrors ▸ he)
  have hevaluation : draft.evaluation = draft.graph.evaluation := by
    rw [Draft.evaluation, if_neg]
    intro hfatal
    obtain ⟨e, he, hsyntax⟩ := List.any_eq_true.mp hfatal
    rw [QueryError.isFatal, hfaults e he] at hsyntax
    cases hsyntax
  have hclean : (∀ e ∈ draft.evaluation.notes, e.kind = .semantic) →
      Clean (draft.errors ++ draft.evaluation.notes) := by
    intro hnotes e he hkind
    rcases List.mem_append.mp he with he | he
    · cases (hfaults e he).symm.trans hkind
    · cases (hnotes e he).symm.trans hkind
  rw [← hmarked.residue_eq]
  rcases hmarked.evaluation_cases hu ht.isQueryTree with ⟨hprune, heq⟩ | ⟨v, hprune, -, heq⟩
  · rw [hevaluation, heq] at hclean ⊢
    exact ⟨hclean (by simp), .inl ⟨by rw [hprune]; rfl, rfl⟩⟩
  · rw [hevaluation, heq] at hclean ⊢
    exact ⟨hclean (promote_semantic v), .inr ⟨v, by rw [hprune]; rfl, rfl⟩⟩

/-- **Lexemes of whose trees the same nodes are left are evaluated in the same
way.** -/
theorem kinds?_eq_of_residue_eq {known : Knowledge} (hsemantic : known.IsSemantic) {text : String}
    {ls ls' : List Lexeme} {t t' : Tree Content} (ht : Disjunction text ls t)
    (ht' : Disjunction text ls' t') (h : residue known t = residue known t') :
    (ofLexemes known text ls).evaluation.value.kinds? =
      (ofLexemes known text ls').evaluation.value.kinds? := by
  obtain ⟨-, hleft⟩ := evaluation_of_derived hsemantic ht
  obtain ⟨-, hright⟩ := evaluation_of_derived hsemantic ht'
  rcases hleft with ⟨hnone, heq⟩ | ⟨v, hsome, heq⟩
  · rcases hright with ⟨-, heq'⟩ | ⟨v', hsome', -⟩
    · rw [heq, heq']
    · cases hnone.symm.trans (h.trans hsome')
  · rcases hright with ⟨hnone', -⟩ | ⟨v', hsome', heq'⟩
    · cases hsome.symm.trans (h.trans hnone')
    · have hkinds : SameKinds v v' := Option.some.inj (hsome.symm.trans (h.trans hsome'))
      rw [heq, heq', kinds?_ofTree, kinds?_ofTree]
      exact congrArg some hkinds.promote.enumerated

end FilterQuery.Draft
