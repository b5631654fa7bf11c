import FilterQuery.Proofs.Mixtures
import FilterQuery.Proofs.Paraphrases
import FilterQuery.Proofs.Renderings

/-!
# Queries with the same rendering

Whatever the scanner finds is legible, since registration keeps blanks, quotes
and delimiters out of operators; and a query keeps what the scanner has found up
to its evaluation.  So the graph of a valid query can be read back of its
rendering, but for what evaluation does not look at: queries with the same
rendering give the same answers.
-/

namespace FilterQuery

open Engine (isReserved)

/-- What ends a value is kept out of operators. -/
theorem Stops.unreserved {cs : List Char} (h : Stops Lexeme.isValueChar cs) :
    Stops (!isReserved ·) cs := by
  intro c hc
  have hvalue := h c hc
  rw [Bool.not_eq_false', isReserved]
  by_contra hreserved
  simp only [Bool.or_eq_true, not_or, List.contains_iff_mem, List.mem_cons] at hreserved
  simp [Lexeme.isValueChar, hreserved] at hvalue

namespace Lexeme

open Grammar

variable {alphabet : List String} {position : Nat} {cs ds behind : List Char}

/-- What is made of such characters begins a text if it begins the row of them
at its front. -/
theorem prefix_takeWhile_iff {p : Char → Bool} {op : List Char} (hop : ∀ c ∈ op, p c = true) :
    op <+: cs.takeWhile p ↔ op <+: cs := by
  constructor
  · exact fun h => h.trans (List.takeWhile_prefix p)
  · rintro ⟨more, rfl⟩
    rw [List.takeWhile_append_of_pos hop]
    exact List.prefix_append _ _

/-- The operator depends on the characters that operators may have at the front
of the text. -/
theorem operator?_of_takeWhile {p : Char → Bool}
    (halphabet : ∀ op ∈ alphabet, ∀ c ∈ op.toList, p c = true)
    (h : cs.takeWhile p = ds.takeWhile p) :
    (operator? alphabet cs).map Prod.fst = (operator? alphabet ds).map Prod.fst := by
  have hfind : alphabet.find? (fun op => op.toList.isPrefixOf cs) =
      alphabet.find? (fun op => op.toList.isPrefixOf ds) := by
    refine List.find?_congr fun op hop => ?_
    rw [Bool.eq_iff_iff, List.isPrefixOf_iff_prefix, List.isPrefixOf_iff_prefix,
      ← prefix_takeWhile_iff (halphabet op hop), h, prefix_takeWhile_iff (halphabet op hop)]
  rw [operator?, operator?, hfind, Option.map_map, Option.map_map]
  rfl

/-- A nested query that is scanned can be read back. -/
theorem block?_isLegible {block : NestedBlock}
    (h : block? position cs = .ok (some (block, behind))) (filter : Option String) :
    ∀ c ∈ blockOperands block filter, c.kind.IsLegible alphabet := by
  obtain ⟨inside, hbrace, hfound, rfl⟩ := block?_eq_found.mp h
  obtain ⟨more, hmore⟩ := List.head?_eq_some_iff.mp hbrace
  rw [hmore] at hfound
  intro c hc
  rw [blockOperands, List.mem_append, List.mem_singleton] at hc
  rcases hc with hc | rfl
  · obtain ⟨name, hname, rfl⟩ := Option.map_eq_some_iff.mp (Option.mem_toList.mp hc)
    dsimp only at hname
    split at hname
    · cases hname
    · cases hname
      intro hblank
      rw [String.toList_ofList] at hblank
      exact absurd (List.mem_takeWhile_imp hblank) (by decide)
  · have henclosed := (isEnclosed_of_delimited hfound).trimChars
    rwa [← String.toList_ofList (l := Text.trimChars inside)] at henclosed

namespace IsFilter

variable {f : FilterExpression} {value : FilterValue} {head rest : List Char}
  (halphabet : ∀ op ∈ alphabet, IsOperatorToken op)
  (h : IsFilter alphabet cs behind f value head rest)
include halphabet h

/-- The head of a filter that is scanned can be read back. -/
theorem isLegibleHead : IsLegibleHead f := by
  obtain ⟨place, valueText, hoperator, -⟩ := h.operator
  obtain ⟨hop, hrest⟩ := operator?_eq_some hoperator
  refine ⟨h.name, fun p hp c hc => ?_, (halphabet _ hop).nonempty, fun hparam c hc => ?_⟩
  · cases h.head with
    | name hparam => cases hparam.symm.trans hp
    | @parameter inside hparam hinside =>
        obtain rfl := Option.some.inj (hparam.symm.trans hp)
        obtain ⟨front, more, -, -, htrim⟩ := Text.exists_trimChars inside
        rw [String.toList_ofList] at hc
        refine (hinside c ?_).2
        rw [htrim]
        exact List.mem_append_right _ (List.mem_append_left _ hc)
  · obtain ⟨tail, htail⟩ := List.head?_eq_some_iff.mp hc
    obtain ⟨hname, hopen⟩ := h.ended hparam c (tail ++ valueText) (by rw [hrest, htail]; rfl)
    simp [hname, hopen]

/-- An operator in front of its value is found in front of whatever begins like
the value. -/
theorem operator?_eq {more : List Char} (hmore : ∀ valueText,
      rest = f.operator.toList ++ valueText →
        more.takeWhile (!isReserved ·) = valueText.takeWhile (!isReserved ·)) :
    operator? alphabet (f.operator.toList ++ more) = some (f.operator, more) := by
  obtain ⟨place, valueText, hoperator, -⟩ := h.operator
  obtain ⟨hop, hrest⟩ := operator?_eq_some hoperator
  have hplain : ∀ op ∈ alphabet, ∀ c ∈ op.toList, (!isReserved c) = true := by
    intro op hop c hc
    rw [(halphabet op hop).unreserved c hc]
    rfl
  -- Operators end before the first reserved character, and up to that both texts agree.
  have hfront : (f.operator.toList ++ more).takeWhile (!isReserved ·) =
      rest.takeWhile (!isReserved ·) := by
    rw [hrest, List.takeWhile_append_of_pos (hplain _ hop),
      List.takeWhile_append_of_pos (hplain _ hop), hmore valueText hrest]
  have hfound := operator?_of_takeWhile hplain hfront
  rw [hoperator] at hfound
  obtain ⟨found, hfind, hname⟩ := Option.map_eq_some_iff.mp hfound
  obtain ⟨op, after⟩ := found
  obtain rfl : op = f.operator := hname
  rw [hfind, List.append_cancel_left (operator?_eq_some hfind).2]

/-- A filter that is scanned can be read back. -/
theorem isLegible (hblock : value.block = none) : IsLegibleFilter alphabet f := by
  obtain ⟨place, valueText, hoperator, hvalue⟩ := h.operator
  obtain ⟨-, hrest⟩ := operator?_eq_some hoperator
  obtain ⟨htext, hquoted⟩ := h.value
  -- The scanner saw the rest of the query behind the value, the rendering has a parenthesis there.
  have hlongest : ∀ more, more.takeWhile (!isReserved ·) = valueText.takeWhile (!isReserved ·) →
      operator? alphabet (f.operator.toList ++ more) = some (f.operator, more) := by
    refine fun more hmore => h.operator?_eq halphabet fun valueText' hrest' => ?_
    rw [hmore, List.append_cancel_left (hrest.symm.trans hrest')]
  rcases filterValue_cases hvalue with ⟨-, hvalueQuoted, more, hmore⟩ | ⟨block, hsome, -⟩ |
    ⟨-, hvalueBare, hvalueText, hhead⟩
  · have hf : f.quoted = true := hquoted.trans hvalueQuoted
    refine ⟨h.isLegibleHead halphabet, fun rest' => hlongest _ ?_, ?_, ?_⟩
    · rw [hmore, valueChars, if_pos hf, Text.toList_quoted]
      rfl
    · simp [hf]
    · simp [hf]
  · cases hblock.symm.trans hsome
  · have hf : f.quoted = false := hquoted.trans hvalueBare
    have hchars : f.value.toList = valueText.takeWhile isValueChar := by rw [htext, hvalueText]
    refine ⟨h.isLegibleHead halphabet, fun rest' => hlongest _ ?_, fun _ c hc => ?_, fun _ => ?_⟩
    · have hbehind : Stops isValueChar (valueText.dropWhile isValueChar) := by
        intro c hc
        obtain ⟨more, hmore⟩ := List.head?_eq_some_iff.mp hc
        exact head_dropWhile hmore
      rw [valueChars, if_neg (by simp [hf]), hchars,
        (stops_cons (by decide) rest').takeWhile_of_append,
        ← hbehind.unreserved.takeWhile_of_append, List.takeWhile_append_dropWhile]
    · rw [hchars] at hc
      exact List.mem_takeWhile_imp hc
    · rw [hchars]
      intro hquote
      obtain ⟨more, hmore⟩ := List.head?_eq_some_iff.mp hquote
      refine hhead ?_
      rw [← List.takeWhile_append_dropWhile (p := isValueChar) (l := valueText), hmore]
      rfl

end IsFilter

/-- What a rule finds can be read back. -/
theorem Finds.isLegible {l : Lexeme} (halphabet : ∀ op ∈ alphabet, IsOperatorToken op)
    (h : Finds alphabet position cs l behind) :
    ∀ c ∈ operands l, c.kind.isPayload = true → c.kind.IsLegible alphabet := by
  cases h with
  | combinator h => rcases combinator?_kind h with rfl | rfl | rfl <;> nofun
  | nested _ h => exact fun c hc _ => block?_isLegible h none c hc
  | filter _ _ h =>
      obtain ⟨f, value, head, rest, rfl, hfilter⟩ := filter?_isFilter h
      obtain ⟨place, valueText, hoperator, hvalue⟩ := hfilter.operator
      intro c hc _
      rcases filterValue_cases hvalue with ⟨hnone, -⟩ | ⟨block, hsome, hblock⟩ | ⟨hnone, -⟩
      · rw [hnone, operands, List.mem_singleton] at hc
        rw [hc]
        exact hfilter.isLegible halphabet hnone
      · rw [hsome, operands, List.mem_cons] at hc
        rcases hc with rfl | hc
        · have hop := halphabet _ (operator?_eq_some hoperator).1
          exact ⟨hfilter.isLegibleHead halphabet, hop.not_mem rfl⟩
        · exact block?_isLegible hblock _ c hc
      · rw [hnone, operands, List.mem_singleton] at hc
        rw [hc]
        exact hfilter.isLegible halphabet hnone
  | toggle _ _ _ h =>
      obtain ⟨name, rfl⟩ := toggle?_kind h
      intro c hc hpayload
      obtain rfl := List.mem_singleton.mp hc
      cases hpayload
  | comment _ _ _ _ h =>
      obtain ⟨text, rfl⟩ := comment?_kind h
      intro c hc hpayload
      obtain rfl := List.mem_singleton.mp hc
      cases hpayload
  | word _ _ _ _ _ h =>
      obtain ⟨word, rfl⟩ := word?_kind h
      intro c hc _
      obtain rfl := List.mem_singleton.mp hc
      exact trivial

mutual

/-- An operand stands in a lexeme that a rule finds. -/
theorem exists_occurs : ∀ l : Lexeme, ∀ c ∈ operands l, ∃ m, (∀ ls, Occurs m (l :: ls)) ∧
    (∀ inner token, m ≠ .group inner token) ∧ c ∈ operands m
  | .group inner token, c, hc => by
      obtain ⟨m, hoccurs, hm⟩ := exists_occurs_of inner c hc
      exact ⟨m, fun ls => .inside token ls hoccurs, hm⟩
  | .and token, c, hc | .or token, c, hc | .not token, c, hc => by cases hc
  | .nested block, c, hc => ⟨_, .here, nofun, hc⟩
  | .filter f block token, c, hc => ⟨_, .here, nofun, hc⟩
  | .toggle name token, c, hc => ⟨_, .here, nofun, hc⟩
  | .comment text token, c, hc => ⟨_, .here, nofun, hc⟩
  | .word expression token, c, hc => ⟨_, .here, nofun, hc⟩

/-- Operands stand in lexemes that a rule finds. -/
theorem exists_occurs_of : ∀ ls : List Lexeme, ∀ c ∈ operandsOf ls, ∃ m, Occurs m ls ∧
    (∀ inner token, m ≠ .group inner token) ∧ c ∈ operands m
  | l :: ls, c, hc => by
      rcases List.mem_append.mp hc with hc | hc
      · obtain ⟨m, hoccurs, hm⟩ := exists_occurs l c hc
        exact ⟨m, hoccurs ls, hm⟩
      · obtain ⟨m, hoccurs, hm⟩ := exists_occurs_of ls c hc
        exact ⟨m, .later l hoccurs, hm⟩

end

/-- **Whatever a text says is legible.** -/
theorem isLegible_of_scan {text : String} {ls : List Lexeme}
    (halphabet : ∀ op ∈ alphabet, IsOperatorToken op) (hscan : scan alphabet text = .ok ls) :
    ∀ c ∈ operandsOf ls, c.kind.isPayload = true → c.kind.IsLegible alphabet := by
  intro c hc
  obtain ⟨m, hoccurs, hsingle, hm⟩ := exists_occurs_of ls c hc
  obtain ⟨front, range, behind, rest, -, hfinds, -⟩ := finds_of_scan hscan hsingle hoccurs
  exact hfinds.isLegible halphabet c hm

end Lexeme

namespace Graph

open Grammar

/-- Each nested query in the tree knows the filter that it belongs to: that of
the innermost node around it with a nested query for its value. -/
inductive IsOwned : Option String → Tree Content → Prop where
  | node {owner : Option String} {c : Content} {ts : List (Tree Content)}
      (owned : ∀ q, c.kind = .nestedQuery q → q.filter = owner)
      (below : ∀ t ∈ ts, IsOwned (c.kind.owner owner) t) : IsOwned owner (.node c ts)

variable {owner : Option String} {text : String} {t u : Tree Content}

/-- A node that is no filter has the owner of its operands. -/
theorem IsOwned.bare {c : Content} {ts : List (Tree Content)} (h : c.kind.isBare = true)
    (hts : ∀ t ∈ ts, IsOwned owner t) : IsOwned owner (.node c ts) := by
  refine .node (fun q hq => ?_) ?_
  · rw [hq] at h
    cases h
  · rwa [NodeKind.owner_of_isBare h]

/-- A block belongs to its filter. -/
theorem isOwned_of_block (block : NestedBlock) (filter : Option String) :
    IsOwned filter (block.tree filter) := by
  have hquery : IsOwned filter
      (.leaf ⟨.nestedQuery { query := block.query, filter }, block.token⟩) := by
    refine .node (fun q hq => ?_) (List.forall_mem_nil _)
    cases hq
    rfl
  rw [NestedBlock.tree]
  cases block.aggregator with
  | none => exact hquery
  | some name =>
      refine .node (fun q hq => ?_) (List.forall_mem_singleton.mpr hquery)
      cases hq

/-- A node with two operands has their owner. -/
theorem IsOwned.pair {c : Content} (h : c.kind.isBare = true) (ht : IsOwned owner t)
    (hu : IsOwned owner u) : IsOwned owner (.node c [t, u]) :=
  .bare h (List.forall_mem_cons.mpr ⟨ht, List.forall_mem_singleton.mpr hu⟩)

/-- A node with one operand has its owner. -/
theorem IsOwned.one {c : Content} (h : c.kind.isBare = true) (ht : IsOwned owner t) :
    IsOwned owner (.node c [t]) :=
  .bare h (List.forall_mem_singleton.mpr ht)

end Graph

namespace Grammar

open FilterQuery.Graph

variable {text : String}

mutual

/-- What is derived from lexemes knows the filters of its nested queries. -/
theorem Disjunction.isOwned : ∀ {ls t}, Disjunction text ls t → IsOwned none t
  | _, _, .single h => h.isOwned
  | _, _, .or _ left right => .pair rfl left.isOwned right.isOwned

/-- A conjunction belongs to no filter. -/
theorem Conjunction.isOwned : ∀ {ls t}, Conjunction text ls t → IsOwned none t
  | _, _, .single h => h.isOwned
  | _, _, .written _ left right => .pair rfl left.isOwned right.isOwned
  | _, _, .omitted left right => .pair rfl left.isOwned right.isOwned

/-- A negation belongs to no filter. -/
theorem Negation.isOwned : ∀ {ls t}, Negation text ls t → IsOwned none t
  | _, _, .operand h => h.isOwned
  | _, _, .not _ h => .one rfl h.isOwned

/-- An operand belongs to no filter. -/
theorem Operand.isOwned : ∀ {l t}, Operand text l t → IsOwned none t
  | _, _, .word .. | _, _, .filter .. | _, _, .toggle .. | _, _, .comment .. => .node nofun nofun
  | _, _, .nestedFilter f block _ =>
      .node nofun (List.forall_mem_singleton.mpr (isOwned_of_block block (some f.name)))
  | _, _, .nested block => isOwned_of_block block none
  | _, _, .group _ body => .one rfl body.isOwned

end

end Grammar

namespace Graph

variable {owner : Option String} {t : Tree Content}

/-- What is left of a node belongs where the node did. -/
theorem isOwned_of_retain {c : Content} {kept : List (Tree Content)}
    (howned : ∀ q, c.kind = .nestedQuery q → q.filter = owner)
    (hbelow : ∀ t ∈ kept, IsOwned (c.kind.owner owner) t) (h : retain c kept = some t) :
    IsOwned owner t := by
  unfold retain at h
  split at h
  · split at h
    · cases h
    · cases h
      exact .node howned nofun
  · split at h
    · next hbinary =>
        cases h
        have hbare : c.kind.isBare = true := by
          cases hkind : c.kind <;> rw [hkind] at hbinary <;> first | rfl | cases hbinary
        rw [NodeKind.owner_of_isBare hbare] at hbelow
        exact hbelow t List.mem_cons_self
    · cases h
      exact .node howned hbelow
  · cases h
    exact .node howned hbelow

/-- **What pruning leaves of a nested query knows its filter as before.** -/
theorem IsOwned.prune {u : Tree Place} (h : IsOwned owner (u.map Place.content))
    (ht : prune u = some t) : IsOwned owner t := by
  induction u generalizing owner t with
  | node p ts ih =>
      rw [Tree.map_node] at h
      obtain ⟨howned, hbelow⟩ := h
      have hkept : ∀ v ∈ ts.filterMap Graph.prune, IsOwned (p.kind.owner owner) v := by
        intro v hv
        obtain ⟨w, hw, hwv⟩ := List.mem_filterMap.mp hv
        exact ih w hw (hbelow _ (List.mem_map_of_mem hw)) hwv
      cases hskip : p.node.skipped with
      | true =>
          rw [Graph.prune, if_pos hskip] at ht
          cases ht
      | false =>
          by_cases hretained : IsRetained p.kind
          · rw [prune_node hskip hretained] at ht
            exact isOwned_of_retain howned hkept ht
          · rw [Graph.prune, if_neg (by simp [hskip])] at ht
            cases hkind : p.kind with
            | group =>
                -- A group has no filter of its own: its tree belongs where the group did.
                rw [hkind] at ht
                cases ts with
                | nil => cases ht
                | cons t ts =>
                    have hfirst := hbelow _ List.mem_cons_self
                    rw [show p.content.kind = .group from hkind] at hfirst
                    exact ih t List.mem_cons_self hfirst ht
            | comment text =>
                rw [hkind] at ht
                cases ht
            | toggle name =>
                rw [hkind] at ht
                cases ht
            | _ => exact absurd (by rw [hkind]; trivial) hretained

/-- Operations on sets belong to no filter. -/
theorem isBare_of_setOperation {kind operation : NodeKind}
    (h : setOperation? kind = some operation) :
    kind.isBare = true ∧ operation.isBare = true := by
  unfold setOperation? at h
  split at h
  · cases h
    exact ⟨rfl, rfl⟩
  · cases h
    exact ⟨rfl, rfl⟩
  · cases h

/-- **Promotion leaves nested queries as they are.** -/
theorem IsOwned.promote (h : IsOwned owner t) : IsOwned owner (promote t).value := by
  induction h with
  | @node owner c ts howned _ ih =>
      have hbelow : ∀ u ∈ ts.map (fun t => (Graph.promote t).value),
          IsOwned (c.kind.owner owner) u := List.forall_mem_map.mpr ih
      rw [(promote_node c ts).1]
      rcases promoteNode_cases c (ts.map fun t => (Graph.promote t).value) with
        hvalue | ⟨operation, hoperation, -, hvalue⟩
      · rw [hvalue]
        exact .node howned hbelow
      · obtain ⟨hbare, hbare'⟩ := isBare_of_setOperation hoperation
        rw [NodeKind.owner_of_isBare hbare] at hbelow
        rw [hvalue]
        exact .bare hbare' hbelow

/-- Making a tree enumerable keeps the owners. -/
theorem IsOwned.enumerated (h : IsOwned none t) : IsOwned none (enumerated t) := by
  unfold Graph.enumerated
  split
  · exact h
  · exact .one rfl h

/-- What has no payload and survives pruning says nothing that could be
misread. -/
theorem isLegible_of_isRetained {alphabet : List String} {kind : NodeKind}
    (hretained : IsRetained kind) (hpayload : kind.isPayload = false) :
    kind.IsLegible alphabet := by
  cases kind with
  | comment text => exact hretained.elim
  | toggle name => exact hretained.elim
  | filter f => cases hpayload
  | nestedFilter f => cases hpayload
  | nestedQuery q => cases hpayload
  | aggregator name => cases hpayload
  | _ => exact trivial

/-- A tree is legible if all in it is. -/
theorem IsOwned.isLegible {alphabet : List String} (h : IsOwned owner t) (hfull : Saturated t)
    (hkinds : ∀ c ∈ t.preorder, c.kind.IsLegible alphabet) :
    IsLegible alphabet owner (t.map (·.kind)) := by
  induction h with
  | @node owner c ts howned _ ih =>
      obtain ⟨harity, hbelow⟩ := hfull
      rw [Tree.map_node]
      refine .node (hkinds c (by simp)) howned (by rw [List.length_map, harity])
        (List.forall_mem_map.mpr fun t ht => ?_)
      exact ih t ht (hbelow t ht) fun c hc => hkinds c (Tree.mem_preorder_of_child ht hc)

end Graph

open FilterQuery.Graph

/-- What is left of a query belongs to no filter. -/
theorem Draft.isOwned_of_prune {known : Knowledge} {text : String} {ls : List Lexeme}
    (hclean : ∀ e ∈ (Draft.ofLexemes known text ls).errors, e.isFatal = false) {t : Tree Content}
    (ht : (Draft.ofLexemes known text ls).graph.tree?.bind prune = some t) : IsOwned none t := by
  rw [Draft.ofLexemes_filled] at ht
  rcases Draft.derivable_of_no_fatal hclean with hnil | ⟨w, hw⟩
  · rw [hnil, tree?, Draft.ofLexemes_nil.1] at ht
    cases ht
  · obtain ⟨u, hu, rfl, -, -⟩ := Draft.derived_tree known hw
    rw [hu, Option.bind_some] at ht
    exact hw.isOwned.prune ht

namespace Engine

variable {α : Type} {engine : Engine α} {text text' : String} {mode mode' : Mode}

/-- **What a valid query evaluates is legible.** -/
theorem Evaluates.isLegible (hoperators : engine.operators.IsSound) {ls : List Lexeme}
    {t : Tree Content} (h : engine.Evaluates text mode ls t) :
    IsLegible engine.alphabet none ((enumerated (promote t).value).map (·.kind)) := by
  have htree : IsEvaluationTree (enumerated (promote t).value) := h.shape.promote.enumerated
  have halphabet : ∀ op ∈ engine.alphabet, IsOperatorToken op := by
    rw [engine.alphabet_eq]
    exact fun op => hoperators.isOperatorToken
  have howned : IsOwned none t := Draft.isOwned_of_prune (by simp [h.errors]) h.pruned
  refine howned.promote.enumerated.isLegible htree.saturated fun c hc => ?_
  by_cases hpayload : c.kind.isPayload = true
  · have hwritten := (Draft.payload_of_prune h.errors h.pruned hc hpayload).1
    exact Lexeme.isLegible_of_scan halphabet h.scan c hwritten hpayload
  · exact isLegible_of_isRetained (htree.isRetained c hc) (eq_false_of_ne_true hpayload)

/-- A query that evaluates a tree is rendered by the kinds of its nodes. -/
theorem Evaluates.render_eq {ls : List Lexeme} {t : Tree Content}
    (h : engine.Evaluates text mode ls t) : (engine.parse text mode).graph.render =
      renderTree ((enumerated (promote t).value).map (·.kind)) := by
  rw [h.graph, render_eq_kinds?, kinds?_ofTree]
  rfl

/-- **The rendering of a query determines its answers.**  Two valid queries of
one engine whose graphs are rendered in the same way pass the same tests, and in
the same mode yield the same slots for each payload.  The operators of the
engine may be any that registration lets through. -/
theorem rendering_determines_the_answers [BEq α] (hoperators : engine.operators.IsSound)
    (hvalid : (engine.parse text mode).isValid = true)
    (hvalid' : (engine.parse text' mode').isValid = true)
    (hrender : (engine.parse text mode).graph.render = (engine.parse text' mode').graph.render) :
    (∀ e, ((engine.parse text mode).test e).value = ((engine.parse text' mode').test e).value) ∧
      (mode = mode' → ∀ payload, ((engine.parse text mode).aligned payload).slots =
        ((engine.parse text' mode').aligned payload).slots) := by
  obtain ⟨ls, t, h⟩ := exists_evaluates hvalid
  obtain ⟨ls', t', h'⟩ := exists_evaluates hvalid'
  rw [h.render_eq, h'.render_eq] at hrender
  have hgist := (h.isLegible hoperators).gist_unique (h'.isLegible hoperators) hrender
  rw [Tree.map_map, Tree.map_map] at hgist
  have hstands : StandsFor engine _ _ := .of_sameGist hgist
  obtain ⟨-, hagrees⟩ := hstands.plan h.clean
  refine ⟨fun e => ?_, fun hmode payload => ?_⟩
  · rw [Query.test, Query.test, h.plan, h'.plan]
    exact (hagrees.yields e).symm
  · rw [Query.aligned, Query.aligned, h.plan, h'.plan, (engine.parse_frame text mode).1,
      (engine.parse_frame text' mode').1, ← hmode]
    exact (hagrees.slots mode payload).symm

/-- The queries `a b` and `a AND "b"` are both rendered as a selection by two
words. -/
theorem answers_of_words_and_phrases :
    let engine : Engine String := { searchTexts := some fun text => [text] }
    let q := engine.parse "a b"
    let q' := engine.parse "a AND \"b\""
    q.graph ≠ q'.graph ∧ q.graph.render = "Where(And(Search(\"a\"), Search(\"b\")))" ∧
      (∀ text, (q.test text).value = (q'.test text).value) ∧
      ∀ payload, (q.aligned payload).slots = (q'.aligned payload).slots := by
  intro engine q q'
  have hvalid : q.isValid = true := by decide +kernel
  have hvalid' : q'.isValid = true := by decide +kernel
  have hrender : q.graph.render = "Where(And(Search(\"a\"), Search(\"b\")))" := by decide +kernel
  have hrender' : q.graph.render = q'.graph.render := by decide +kernel
  have hsound : engine.operators.IsSound := OperatorTable.builtin_isSound
  have hanswers := rendering_determines_the_answers hsound hvalid hvalid' hrender'
  exact ⟨by decide +kernel, hrender, hanswers.1, hanswers.2 rfl⟩

end Engine

end FilterQuery
