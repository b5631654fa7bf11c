import FilterQuery.Proofs.FormulaMeaning
import FilterQuery.Proofs.Payloads

/-!
# Operators that a filter allows

What is evaluated about elements has been written in the text and is not
skipped, so that in a valid query the checks have found no fault with any filter
that is evaluated.  The operator of a filter is the last thing that they look
at.  A filter without a value has been dealt with before: it is an error or
skipped, but if the settings ask for neither, then its operator is never looked
at.
-/

namespace FilterQuery

open FilterQuery.Graph Grammar Lexeme

namespace Graph

/-- A node that carries a payload is among the payloads, with some negations
around it. -/
theorem exists_payload_of_mem {t : Tree Content} {c : Content} (hc : c ∈ t.preorder)
    (hpayload : c.kind.isPayload = true) (n : Nat) : ∃ m, (c, m) ∈ payloads n t := by
  induction t generalizing n with
  | node l ts ih =>
      rw [Tree.preorder_node, List.mem_cons] at hc
      rw [payloads_node]
      cases hc with
      | inl hroot =>
          refine ⟨n, List.mem_append_left _ ?_⟩
          rw [← hroot, ownPayload, if_pos hpayload]
          exact List.mem_singleton_self _
      | inr hbelow =>
          obtain ⟨t, ht, hct⟩ := List.mem_flatMap.mp hbelow
          obtain ⟨m, hm⟩ := ih t ht hct (negationsBelow n l.kind)
          exact ⟨m, List.mem_append_right _ (List.mem_flatMap.mpr ⟨t, ht, hm⟩)⟩

/-- A payload is that of a node of the tree. -/
theorem mem_preorder_of_payload {t : Tree Content} {c : Content} {m n : Nat}
    (h : (c, m) ∈ payloads n t) : c ∈ t.preorder := by
  induction t generalizing n with
  | node l ts ih =>
      rw [payloads_node, List.mem_append] at h
      cases h with
      | inl hroot =>
          unfold ownPayload at hroot
          split at hroot
          · have heq : (c, m) = (l, n) := List.mem_singleton.mp hroot
            rw [(Prod.mk.inj heq).1, Tree.preorder_node]
            exact List.mem_cons_self
          · cases hroot
      | inr hbelow =>
          obtain ⟨t, ht, hct⟩ := List.mem_flatMap.mp hbelow
          exact Tree.mem_preorder_of_child ht (ih t ht hct)

/-- What is left without the skipped nodes was not skipped. -/
theorem exists_place_of_withoutSkipped {u : Tree Place} {w : Tree Content}
    (h : withoutSkipped u = some w) {c : Content} (hc : c ∈ w.preorder) :
    ∃ p ∈ u.preorder, p.content = c ∧ p.node.skipped = false := by
  induction u generalizing w with
  | node p ts ih =>
      cases hskipped : p.node.skipped with
      | true =>
          rw [withoutSkipped, if_pos hskipped] at h
          cases h
      | false =>
          rw [withoutSkipped_node hskipped] at h
          obtain rfl := Option.some.inj h
          rw [Tree.preorder_node, List.mem_cons] at hc
          cases hc with
          | inl hroot => exact ⟨p, by simp, hroot.symm, hskipped⟩
          | inr hbelow =>
              obtain ⟨v, hv, hcv⟩ := List.mem_flatMap.mp hbelow
              obtain ⟨t, ht, hvt⟩ := List.mem_filterMap.mp hv
              obtain ⟨q, hq, hcontent, hkept⟩ := ih t ht hvt hcv
              exact ⟨q, Tree.mem_preorder_of_child ht hq, hcontent, hkept⟩

/-- A payload that is left when a tree is pruned stands in the tree, and is not
skipped. -/
theorem exists_place_of_prune {u : Tree Place} {v : Tree Content}
    (hfull : Saturated (u.map Place.content)) (hv : prune u = some v) {c : Content}
    (hc : c ∈ (enumerated (promote v).value).preorder) (hpayload : c.kind.isPayload = true) :
    ∃ p ∈ u.preorder, p.content = c ∧ p.node.skipped = false := by
  obtain ⟨m, hm⟩ := exists_payload_of_mem hc hpayload 0
  have hkept : payloads 0 v = (withoutSkipped u).toList.flatMap (payloads 0) := by
    rw [← payloads_prune hfull, hv, Option.toList_some, List.flatMap_singleton]
  rw [payloads_enumerated, payloads_promote, hkept] at hm
  obtain ⟨w, hw, hmem⟩ := List.mem_flatMap.mp hm
  exact exists_place_of_withoutSkipped (Option.mem_toList.mp hw) (mem_preorder_of_payload hmem)

end Graph

namespace Knowledge

variable {known : Knowledge}

/-- The fault of a filter. -/
def cause? (known : Knowledge) : NodeKind → Option Cause
  | .filter f => (known.judge f false).cause
  | .nestedFilter f => (known.judge f true).cause
  | _ => none

/-- A filter without faults has no cause to be skipped. -/
theorem cause?_of_filterFaults {f : FilterExpression} {nested : Bool} {token : Token}
    (h : known.filterFaults f nested token = []) : (known.judge f nested).cause = none := by
  rw [filterFaults, List.map_eq_nil_iff] at h
  exact Option.toList_eq_nil_iff.mp h

/-- The operands of a block have no cause to be skipped. -/
theorem cause?_of_block {block : NestedBlock} {filter : Option String} {c : Content}
    (hc : c ∈ blockOperands block filter) : known.cause? c.kind = none := by
  rw [blockOperands, List.mem_append] at hc
  cases hc with
  | inl haggregator =>
      obtain ⟨name, -, rfl⟩ := Option.map_eq_some_iff.mp (Option.mem_toList.mp haggregator)
      rfl
  | inr hquery =>
      obtain rfl := List.mem_singleton.mp hquery
      rfl

mutual

/-- If no fault is found with a lexeme, there is none with the filters in it. -/
theorem cause?_of_faults : ∀ l : Lexeme, known.faults l = [] → ∀ c ∈ operands l,
    known.cause? c.kind = none
  | .group inner _, h => by
      rw [faults] at h
      exact cause?_of_faultsOf inner h
  | .and _, _ | .or _, _ | .not _, _ => by simp [operands]
  | .nested _, _ => fun _ hc => cause?_of_block hc
  | .filter _ none _, h => by
      intro c hc
      obtain rfl := List.mem_singleton.mp hc
      rw [faults] at h
      exact cause?_of_filterFaults h
  | .filter _ (some _) _, h => by
      intro c hc
      rw [faults] at h
      split at h
      · have hfilter := (List.append_eq_nil_iff.mp h).1
        cases List.mem_cons.mp hc with
        | inl hroot =>
            obtain rfl := hroot
            exact cause?_of_filterFaults hfilter
        | inr hblock => exact cause?_of_block hblock
      · cases h
  | .toggle _ _, _ | .comment _ _, _ | .word _ _, _ => by
      intro c hc
      obtain rfl := List.mem_singleton.mp hc
      rfl

/-- Where lexemes have no faults their operands have no cause to be skipped. -/
theorem cause?_of_faultsOf : ∀ ls : List Lexeme, known.faultsOf ls = [] → ∀ c ∈ operandsOf ls,
    known.cause? c.kind = none
  | [], _ => by simp [operandsOf]
  | l :: ls, h => by
      intro c hc
      rw [faultsOf, List.append_eq_nil_iff] at h
      cases List.mem_append.mp hc with
      | inl hl => exact cause?_of_faults l h.1 c hl
      | inr hls => exact cause?_of_faultsOf ls h.2 c hls

end

end Knowledge

/-- A draft without errors finds no fault with the filters in its text. -/
theorem Draft.cause?_of_clean {known : Knowledge} {text : String} {ls : List Lexeme}
    (h : (ofLexemes known text ls).errors = []) :
    ∀ c ∈ operandsOf ls, known.cause? c.kind = none := by
  rw [ofLexemes_filled] at h
  rw [← operandsOf_filledAll]
  have hsyntax : Clean (ofLexemes known text (filledAll ls)).errors := by
    rw [h]
    exact List.forall_mem_nil _
  rcases derivable_of_clean (allFilled_filledAll ls) hsyntax with hnil | ⟨t, ht⟩
  · rw [hnil]
    exact List.forall_mem_nil _
  · obtain ⟨u, -, -, -, hfaults⟩ := derived_tree known ht
    exact known.cause?_of_faultsOf _ (hfaults.symm.trans h)

/-- **What is evaluated is in order.**  If a draft has no errors, the payloads
that pruning leaves have been written in the text, they are not skipped, and
there is no fault with them. -/
theorem Draft.payload_of_prune {known : Knowledge} {text : String} {ls : List Lexeme}
    (herrors : (ofLexemes known text ls).errors = []) {v : Tree Content}
    (hv : (ofLexemes known text ls).graph.tree?.bind prune = some v) {c : Content}
    (hc : c ∈ (enumerated (promote v).value).preorder) (hpayload : c.kind.isPayload = true) :
    c ∈ operandsOf ls ∧ known.skips c.kind = false ∧ known.cause? c.kind = none := by
  have hcause := cause?_of_clean herrors
  rw [ofLexemes_filled] at herrors hv
  have hsyntax : Clean (ofLexemes known text (filledAll ls)).errors := by
    rw [herrors]
    intro e he
    cases he
  rcases derivable_of_clean (allFilled_filledAll ls) hsyntax with hnil | ⟨t, ht⟩
  · rw [hnil, tree?, ofLexemes_nil.1] at hv
    cases hv
  · obtain ⟨u, hu, rfl, hmarked, -⟩ := derived_tree known ht
    rw [hu, Option.bind_some] at hv
    obtain ⟨q, hq, rfl, hkept⟩ :=
      exists_place_of_prune (saturated_of_isQueryTree ht.isQueryTree) hv hc hpayload
    have hleaf : q.content ∈ leaves (u.map Place.content) := by
      have hoperand : isOperandKind q.content = true := by
        rw [isOperandKind]
        cases hkind : q.content.kind <;> rw [hkind] at hpayload <;> first | rfl | cases hpayload
      rw [leaves, List.mem_filter, Tree.preorder_map]
      exact ⟨List.mem_map_of_mem hq, hoperand⟩
    rw [ht.leaves_eq, operandsOf_filledAll] at hleaf
    exact ⟨hleaf, (hmarked q hq).symm.trans hkept, hcause _ hleaf⟩

/-- The payloads of the graph to evaluate are not skipped, and there is no fault
with them. -/
theorem Draft.payload_of_evaluation {known : Knowledge} {text : String} {ls : List Lexeme}
    (herrors : (ofLexemes known text ls).errors = []) {p : Place}
    (hp : p ∈ (ofLexemes known text ls).evaluation.value.places)
    (hpayload : p.kind.isPayload = true) :
    known.skips p.kind = false ∧ known.cause? p.kind = none := by
  have hclean : ∀ e ∈ (ofLexemes known text ls).errors, e.isFatal = false := by simp [herrors]
  rcases evaluation_of_clean hclean with ⟨-, heq⟩ | ⟨v, hv, -, heq⟩
  · rw [heq] at hp
    cases hp
  · obtain ⟨w, hw, hcontent, -⟩ := ofTree_tree? (enumerated (promote v).value)
    rw [heq, places, hw] at hp
    have hmem : p.content ∈ (enumerated (promote v).value).preorder := by
      rw [← hcontent, Tree.preorder_map]
      exact List.mem_map_of_mem hp
    exact (payload_of_prune herrors hv hmem hpayload).2

namespace Engine

variable {α : Type} {engine : Engine α}

/-- A filter without a value is passed over, if the settings neither report nor
skip it. -/
def passesOver (engine : Engine α) (f : FilterExpression) : Bool :=
  f.isIncomplete && !engine.validation.checksFilters && !engine.validation.skipsIncomplete

/-- A filter with a nested query that no fault is found with has an operator
that it allows. -/
theorem accepts_of_judge_nested {f : FilterExpression} {found : FoundFilter α}
    (hfound : engine.findFilter? f.name = some found)
    (hcause : (engine.judge f true).cause = none) : found.filter.accepts f.operator = true := by
  cases haccepts : found.filter.accepts f.operator with
  | true => rfl
  | false => simp [judge, hfound, haccepts] at hcause

/-- A filter that stays and that no fault is found with has an operator that it
allows, or is passed over. -/
theorem accepts_of_judge {f : FilterExpression} {found : FoundFilter α}
    (hfound : engine.findFilter? f.name = some found)
    (hskipped : (engine.judge f false).skipped = false)
    (hcause : (engine.judge f false).cause = none) :
    found.filter.accepts f.operator = true ∨ engine.passesOver f = true := by
  cases hincomplete : f.isIncomplete with
  | false =>
      left
      cases haccepts : found.filter.accepts f.operator with
      | true => rfl
      | false => simp [judge, hfound, hincomplete, haccepts] at hcause
  | true =>
      right
      cases hskips : engine.validation.skipsIncomplete with
      | true => simp [judge, hfound, hincomplete, hskips] at hskipped
      | false =>
          cases hchecks : engine.validation.checksFilters with
          | true => simp [judge, hfound, hincomplete, hskips, hchecks] at hcause
          | false => simp [passesOver, hincomplete, hskips, hchecks]

/-- **A valid query uses a filter with the operators it allows.**  Whatever the
engine, each filter in the graph of a valid query that is registered is used
with an operator that it allows; only one without a value need not be, if the
settings let it pass over the checks. -/
theorem valid_queries_use_allowed_operators (engine : Engine α) (text : String) (mode : Mode)
    (hvalid : (engine.parse text mode).isValid = true) :
    ∀ p ∈ (engine.parse text mode).graph.places,
      ∀ f, p.kind = .filter f ∨ p.kind = .nestedFilter f →
      ∀ found, engine.findFilter? f.name = some found →
        found.filter.accepts f.operator = true ∨
          p.kind = .filter f ∧ engine.passesOver f = true := by
  intro p hp f hkind found hfound
  cases hscan : scan engine.alphabet text with
  | error e =>
      rw [parse, hscan] at hvalid
      cases hvalid
  | ok ls =>
      obtain ⟨q, hq, -, -, hgraph, herrors⟩ := parse_eq mode hscan
      have hcompile : q.compile.graph = q.graph := by
        unfold Query.compile
        split
        · rfl
        · rfl
      have hclean : q.errors = [] := by
        rw [hq, Query.compile] at hvalid
        split at hvalid
        · next hnil => exact List.isEmpty_iff.mp hnil
        · next hfaulty => simp [Query.isValid, hfaulty] at hvalid
      rw [herrors, List.append_eq_nil_iff] at hclean
      rw [hq, hcompile, hgraph] at hp
      have hpayload : p.kind.isPayload = true := by
        rcases hkind with hkind | hkind
        · rw [hkind]; rfl
        · rw [hkind]; rfl
      obtain ⟨hkept, hcause⟩ := Draft.payload_of_evaluation hclean.1 hp hpayload
      rcases hkind with hkind | hkind
      · rw [hkind] at hkept hcause
        rcases accepts_of_judge hfound hkept hcause with haccepts | hover
        · exact .inl haccepts
        · exact .inr ⟨hkind, hover⟩
      · rw [hkind] at hcause
        exact .inl (accepts_of_judge_nested hfound hcause)

/-- A filter that allows two operators. -/
def kindFilter : Filter String := (Filter.ofGetter "kind" id).withOperators [":", "="]

/-- An engine with this filter that does not check filters. -/
def lenient : Engine String :=
  { (({} : Engine String).addFilter kindFilter).1 with validation := { checksFilters := false } }

/-- The text `kind:prefab or -kind=model`, with the two operators that the
filter allows. -/
theorem operators_of_two_filters :
    let q := lenient.parse "kind:prefab or -kind=model"
    q.isValid = true ∧
      ∀ p ∈ q.graph.places, ∀ f, p.kind = .filter f ∨ p.kind = .nestedFilter f →
        ∀ found, lenient.findFilter? f.name = some found →
          found.filter.accepts f.operator = true ∨
            p.kind = .filter f ∧ lenient.passesOver f = true := by
  intro q
  have hvalid : q.isValid = true := by decide +kernel
  exact ⟨hvalid, valid_queries_use_allowed_operators lenient _ .strict hvalid⟩

/-- **A filter without a value escapes the whitelist.**  The text `kind>` is a
valid query, although the filter does not allow this operator. -/
theorem unfinished_filter_escapes_the_whitelist :
    let q := lenient.parse "kind>"
    q.isValid = true ∧
      ∃ p ∈ q.graph.places, ∃ f found, p.kind = .filter f ∧
        lenient.findFilter? f.name = some found ∧ found.filter.accepts f.operator = false := by
  intro q
  let f : FilterExpression := { name := "kind", operator := ">", value := "" }
  let node : Node := { kind := .filter f, token := ⟨"kind>", 0, 5⟩, parent := some 1 }
  have hvalid : q.isValid = true := by decide +kernel
  have hplace : ⟨0, node⟩ ∈ q.graph.places := by decide +kernel
  have hfound : lenient.findFilter? f.name = some { filter := kindFilter } :=
    findFilter?_of_single rfl (by decide +kernel)
  exact ⟨hvalid, ⟨0, node⟩, hplace, f, { filter := kindFilter }, rfl, hfound, by decide⟩

end Engine

end FilterQuery
