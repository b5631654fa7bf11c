import FilterQuery.Proofs.EmptyGroups
import FilterQuery.Proofs.WellFormed

/-!
# Payloads

The payloads of a graph are the nodes that a query is about: its filters, words,
nested queries and aggregators.  On the way to evaluation a combinator may
vanish with its operands or be replaced by the one that is left, and it may
become a set operation; but the payloads that are not skipped stay, in the order
of the text and each below as many negations as before.
-/

namespace FilterQuery

/-- A node of this kind says something about elements by itself. -/
def NodeKind.isPayload : NodeKind → Bool
  | .filter _ | .nestedFilter _ | .search _ | .aggregator _ | .nestedQuery _ => true
  | _ => false

namespace Graph

open Grammar (IsQueryTree IsBlock)

mutual

/-- The payloads of a tree, each before those below it, with the number of
negations above it.  `negations` are above the tree. -/
def payloads (negations : Nat) : Tree Content → List (Content × Nat)
  | .node c ts =>
    (if c.kind.isPayload then [(c, negations)] else []) ++
      payloadsAll (if c.kind = .not then negations + 1 else negations) ts

def payloadsAll (negations : Nat) : List (Tree Content) → List (Content × Nat)
  | [] => []
  | t :: ts => payloads negations t ++ payloadsAll negations ts

end

mutual

/-- The tree without the skipped nodes and all that is below them. -/
def withoutSkipped : Tree Place → Option (Tree Content)
  | .node p ts => if p.node.skipped then none else some (.node p.content (withoutSkippedAll ts))

def withoutSkippedAll : List (Tree Place) → List (Tree Content)
  | [] => []
  | t :: ts => (withoutSkipped t).toList ++ withoutSkippedAll ts

end

/-- The payloads of a graph that are not skipped. -/
def payloadsOf (g : Graph) : List (Content × Nat) :=
  (g.tree?.bind withoutSkipped).toList.flatMap (payloads 0)

/-- The payloads of trees are those of each in turn. -/
theorem payloadsAll_eq_flatMap (n : Nat) (ts : List (Tree Content)) :
    payloadsAll n ts = ts.flatMap (payloads n) := by
  induction ts with
  | nil => rfl
  | cons t ts ih => rw [payloadsAll, ih, List.flatMap_cons]

/-- Skipped nodes are left out of each tree. -/
theorem withoutSkippedAll_eq_filterMap (ts : List (Tree Place)) :
    withoutSkippedAll ts = ts.filterMap withoutSkipped := by
  induction ts with
  | nil => rfl
  | cons t ts ih =>
      rw [withoutSkippedAll, ih]
      cases h : withoutSkipped t <;> simp [h]

/-- The node itself, if it is a payload. -/
def ownPayload (n : Nat) (c : Content) : List (Content × Nat) :=
  if c.kind.isPayload then [(c, n)] else []

/-- The number of negations above the operands of a node. -/
def negationsBelow (n : Nat) (kind : NodeKind) : Nat :=
  if kind = .not then n + 1 else n

/-- The payloads of a node are its own and those of its operands, below its
negation. -/
theorem payloads_node (n : Nat) (c : Content) (ts : List (Tree Content)) :
    payloads n (.node c ts) =
      ownPayload n c ++ ts.flatMap (payloads (negationsBelow n c.kind)) := by
  rw [payloads, payloadsAll_eq_flatMap]
  rfl

/-- A node that is not skipped keeps what is left of its operands. -/
theorem withoutSkipped_node {p : Place} (h : p.node.skipped = false) (ts : List (Tree Place)) :
    withoutSkipped (.node p ts) = some (.node p.content (ts.filterMap withoutSkipped)) := by
  rw [withoutSkipped, if_neg (by simp [h]), withoutSkippedAll_eq_filterMap]

/-- A node that is no payload and no negation has the payloads below it. -/
theorem payloads_of_not_payload {c : Content} (hkind : c.kind.isPayload = false)
    (hnot : c.kind ≠ .not) (n : Nat) (ts : List (Tree Content)) :
    payloads n (.node c ts) = ts.flatMap (payloads n) := by
  rw [payloads_node, ownPayload, negationsBelow, hkind, if_neg hnot]
  rfl

/-- **What is left of a node has the payloads of the node over what is left of
its operands.** -/
theorem payloads_retain (n : Nat) (c : Content) (vs : List (Tree Content)) :
    (retain c vs).toList.flatMap (payloads n) = payloads n (.node c vs) := by
  obtain ⟨kind, token⟩ := c
  unfold retain
  split
  · split
    · next hcombinator =>
        have hnone : ownPayload n ⟨kind, token⟩ = [] := by
          cases kind <;> first | rfl | cases hcombinator
        rw [payloads_node, hnone]
        rfl
    · rw [Option.toList_some, List.flatMap_singleton]
  · split
    · next only hbinary =>
        have hpayload : kind.isPayload = false := by cases kind <;> first | rfl | cases hbinary
        have hnot : kind ≠ .not := by
          rintro rfl
          cases hbinary
        rw [payloads_of_not_payload hpayload hnot]
        rfl
    · rw [Option.toList_some, List.flatMap_singleton]
  · rw [Option.toList_some, List.flatMap_singleton]

/-- What differs only where nothing comes of it comes to the same. -/
theorem flatMap_filterMap_congr {β γ δ : Type} {ts : List β} {f g : β → Option γ} {h : γ → List δ}
    (heq : ∀ t ∈ ts, (f t).toList.flatMap h = (g t).toList.flatMap h) :
    (ts.filterMap f).flatMap h = (ts.filterMap g).flatMap h := by
  induction ts with
  | nil => rfl
  | cons t ts ih =>
      have hfirst := heq t (by simp)
      have hrest := ih fun t ht => heq t (by simp [ht])
      have hcons : ∀ k : β → Option γ, ((t :: ts).filterMap k).flatMap h =
          (k t).toList.flatMap h ++ (ts.filterMap k).flatMap h := by
        intro k
        cases hk : k t with
        | none => simp [hk]
        | some v => simp [hk]
      rw [hcons, hcons, hfirst, hrest]

/-- A pair of parentheses stands for what is in it, and notes have nothing below
them. -/
theorem payloads_prune_of_not_retained {p : Place} {ts : List (Tree Place)}
    (hskipped : p.node.skipped = false) (hretained : ¬ IsRetained p.kind)
    (harity : ts.length = p.kind.arity) {n : Nat}
    (hbelow : ∀ t ∈ ts, (prune t).toList.flatMap (payloads n) =
      (withoutSkipped t).toList.flatMap (payloads n)) :
    (prune (.node p ts)).toList.flatMap (payloads n) =
      payloads n (.node p.content (ts.filterMap withoutSkipped)) := by
  have hcontent : p.content.kind = p.kind := rfl
  cases hkind : p.kind with
  | group =>
      rw [hkind] at harity
      obtain ⟨t, rfl⟩ := List.length_eq_one_iff.mp harity
      have hpruned : prune (.node p [t]) = prune t := by
        rw [prune, if_neg (by simp [hskipped]), hkind]
        rfl
      rw [hpruned, hbelow t (by simp),
        payloads_of_not_payload (by rw [hcontent, hkind]; rfl) (by rw [hcontent, hkind]; simp)]
      cases h : withoutSkipped t <;> simp [h]
  | comment content =>
      rw [hkind] at harity
      obtain rfl := List.length_eq_zero_iff.mp harity
      simp [prune, hskipped, hkind, payloads_node, ownPayload, hcontent, NodeKind.isPayload]
  | toggle name =>
      rw [hkind] at harity
      obtain rfl := List.length_eq_zero_iff.mp harity
      simp [prune, hskipped, hkind, payloads_node, ownPayload, hcontent, NodeKind.isPayload]
  | _ => exact absurd (by rw [hkind]; trivial) hretained

/-- **Pruning loses no payload that is not skipped.** -/
theorem payloads_prune {u : Tree Place} (hfull : Saturated (u.map Place.content)) (n : Nat) :
    (prune u).toList.flatMap (payloads n) = (withoutSkipped u).toList.flatMap (payloads n) := by
  induction u generalizing n with
  | node p ts ih =>
      rw [Tree.map_node] at hfull
      obtain ⟨harity, hbelow⟩ := hfull
      rw [List.length_map] at harity
      have hoperand : ∀ t ∈ ts, ∀ m, (prune t).toList.flatMap (payloads m) =
          (withoutSkipped t).toList.flatMap (payloads m) :=
        fun t ht => ih t ht (hbelow _ (List.mem_map_of_mem ht))
      cases hskipped : p.node.skipped with
      | true => simp [prune, withoutSkipped, hskipped]
      | false =>
          rw [withoutSkipped_node hskipped, Option.toList_some, List.flatMap_singleton]
          by_cases hretained : IsRetained p.kind
          · rw [prune_node hskipped hretained, payloads_retain, payloads_node, payloads_node,
              flatMap_filterMap_congr fun t ht => hoperand t ht _]
          · exact payloads_prune_of_not_retained hskipped hretained harity
              fun t ht => hoperand t ht n

/-- Promoting a node keeps the payloads. -/
theorem payloads_promoteNode (n : Nat) (c : Content) (ts : List (Tree Content)) :
    payloads n (promoteNode c ts).value = payloads n (.node c ts) := by
  obtain ⟨kind, token⟩ := c
  rcases promoteNode_cases ⟨kind, token⟩ ts with hvalue | ⟨operation, hoperation, -, hvalue⟩
  · rw [hvalue]
  · have hkinds : kind.isPayload = false ∧ kind ≠ .not ∧ operation.isPayload = false ∧
        operation ≠ .not := by
      unfold setOperation? at hoperation
      split at hoperation
      · next hkind => obtain rfl := Option.some.inj hoperation; simp_all [NodeKind.isPayload]
      · next hkind => obtain rfl := Option.some.inj hoperation; simp_all [NodeKind.isPayload]
      · cases hoperation
    obtain ⟨hkind, hnot, hoperation', hnot'⟩ := hkinds
    rw [hvalue, payloads_of_not_payload (c := ⟨operation, token⟩) hoperation' hnot',
      payloads_of_not_payload (c := ⟨kind, token⟩) hkind hnot]

/-- **Promotion keeps the payloads.** -/
theorem payloads_promote (n : Nat) (t : Tree Content) :
    payloads n (promote t).value = payloads n t := by
  induction t generalizing n with
  | node c ts ih =>
      rw [(promote_node c ts).1, payloads_promoteNode, payloads_node, payloads_node,
        List.flatMap_map]
      congr 1
      exact List.flatMap_congr fun t ht => ih t ht _

/-- Making a tree enumerable keeps the payloads. -/
theorem payloads_enumerated (n : Nat) (t : Tree Content) :
    payloads n (enumerated t) = payloads n t := by
  unfold enumerated
  split
  · rfl
  · rw [payloads_of_not_payload rfl (by simp), List.flatMap_singleton]

/-- A node with payloads below it has some. -/
theorem payloads_ne_nil_of_child {n : Nat} {c : Content} {ts : List (Tree Content)}
    {t : Tree Content} (ht : t ∈ ts) (h : ∀ m, payloads m t ≠ []) :
    payloads n (.node c ts) ≠ [] := by
  rw [payloads_node]
  intro hnil
  have hbelow := (List.append_eq_nil_iff.mp hnil).2
  exact h _ (List.flatMap_eq_nil_iff.mp hbelow t ht)

/-- A node that is a payload has one. -/
theorem payloads_ne_nil_of_payload {n : Nat} {c : Content} {ts : List (Tree Content)}
    (h : c.kind.isPayload = true) : payloads n (.node c ts) ≠ [] := by
  rw [payloads_node, ownPayload, if_pos h]
  exact List.cons_ne_nil _ _

/-- A tree of sets has payloads. -/
theorem IsSetTree.payloads_ne_nil {t : Tree Content} (h : IsSetTree t) (n : Nat) :
    payloads n t ≠ [] := by
  induction h generalizing n with
  | block h =>
      cases h with
      | query q token => exact payloads_ne_nil_of_payload rfl
      | aggregator name q token token' => exact payloads_ne_nil_of_payload rfl
  | intersection _ _ ihl _ => exact payloads_ne_nil_of_child List.mem_cons_self ihl
  | union _ _ ihl _ => exact payloads_ne_nil_of_child List.mem_cons_self ihl

/-- **A condition has payloads.** -/
theorem IsConditionTree.payloads_ne_nil {t : Tree Content} (h : IsConditionTree t) (n : Nat) :
    payloads n t ≠ [] := by
  induction h generalizing n with
  | binary _ _ _ ihl _ => exact payloads_ne_nil_of_child List.mem_cons_self ihl
  | not _ ih => exact payloads_ne_nil_of_child List.mem_cons_self ih
  | search s token => exact payloads_ne_nil_of_payload rfl
  | filter f token => exact payloads_ne_nil_of_payload rfl
  | nestedFilter f token h => exact payloads_ne_nil_of_payload rfl
  | set h => exact h.payloads_ne_nil n

section OfTree

variable {t : Tree Content}

/-- The tree that the graph of a tree unfolds to. -/
theorem ofTree_tree? (t : Tree Content) :
    ∃ u, (ofTree t).tree? = some u ∧ u.map Place.content = t ∧
      (∀ p ∈ u.preorder, p.node.skipped = false) ∧
      (u.preorder.map (·.id)).Perm (List.range (ofTree t).nodes.size) := by
  obtain ⟨s, hcopy, hholds, hsize⟩ := ofTree_holds t
  obtain ⟨u, hu, rfl⟩ := hholds.exists_tree
  have hids : indices (u.map Place.spot) = u.preorder.map (·.id) := by
    rw [indices, Tree.preorder_map, List.map_map]
    rfl
  refine ⟨u, hu, ?_, fun p hp => ?_, ?_⟩
  · rw [← hcopy.content, Tree.map_map]
    rfl
  · have hmem : p.spot ∈ (u.map Place.spot).preorder := by
      rw [Tree.preorder_map]
      exact List.mem_map_of_mem hp
    exact hcopy.unskipped _ hmem
  · rw [← hids]
    have hsub : indices (u.map Place.spot) ⊆ List.range (ofTree t).nodes.size :=
      fun i hi => List.mem_range.mpr (hholds.laid.index_lt i hi)
    refine (List.subperm_of_subset hholds.nodup hsub).perm_of_length_le ?_
    rw [List.length_range, hsize]

/-- Where nothing is skipped everything is left. -/
theorem withoutSkipped_of_unskipped {u : Tree Place}
    (h : ∀ p ∈ u.preorder, p.node.skipped = false) :
    withoutSkipped u = some (u.map Place.content) := by
  induction u with
  | node p ts ih =>
      have hroot : p.node.skipped = false := h p (by simp)
      have hbelow : ∀ t ∈ ts, withoutSkipped t = some (t.map Place.content) :=
        fun t ht => ih t ht fun q hq => h q (Tree.mem_preorder_of_child ht hq)
      rw [withoutSkipped_node hroot, Tree.map_node, List.filterMap_congr hbelow,
        List.filterMap_eq_map']

/-- The payloads of the graph of a tree are those of the tree. -/
theorem payloadsOf_ofTree (t : Tree Content) : payloadsOf (ofTree t) = payloads 0 t := by
  obtain ⟨u, hu, hcontent, hskipped, -⟩ := ofTree_tree? t
  rw [payloadsOf, hu, Option.bind_some, withoutSkipped_of_unskipped hskipped, hcontent,
    Option.toList_some, List.flatMap_singleton]

end OfTree

/-- A graph as it is evaluated. -/
structure IsLowered (g : Graph) : Prop where
  wellFormed : g.IsWellFormed
  /-- Each node of the graph is reached from the root, and only once. -/
  whole : (g.places.map (·.id)).Perm (List.range g.nodes.size)
  /-- No parentheses, comments, toggles or skipped nodes are left. -/
  retained : ∀ p ∈ g.places, p.node.skipped = false ∧ IsRetained p.kind
  /-- The root yields elements. -/
  root : ∀ r, g.root = some r → (g.kind r).isEnumerable = true

/-- An empty graph is lowered. -/
theorem isLowered_empty : IsLowered {} where
  wellFormed := isWellFormed_of_root_eq_none rfl
  whole := .refl _
  retained _ hp := absurd hp List.not_mem_nil
  root _ hr := by cases hr

/-- A nested query stays as it is. -/
theorem isRetained_of_isBlock {t : Tree Content} (h : IsBlock t) :
    ∀ c ∈ t.preorder, IsRetained c.kind := by
  cases h with
  | query q token => simp [Tree.leaf, IsRetained]
  | aggregator name q token token' => simp [Tree.leaf, IsRetained]

/-- A tree of sets stays as it is. -/
theorem IsSetTree.isRetained {t : Tree Content} (h : IsSetTree t) :
    ∀ c ∈ t.preorder, IsRetained c.kind := by
  induction h with
  | block h => exact isRetained_of_isBlock h
  | intersection _ _ ihl ihr => simpa [or_imp, forall_and, IsRetained] using ⟨ihl, ihr⟩
  | union _ _ ihl ihr => simpa [or_imp, forall_and, IsRetained] using ⟨ihl, ihr⟩

/-- A condition stays as it is. -/
theorem IsConditionTree.isRetained {t : Tree Content} (h : IsConditionTree t) :
    ∀ c ∈ t.preorder, IsRetained c.kind := by
  induction h with
  | @binary kind _ _ _ hkind _ _ ihl ihr =>
      have hretained : IsRetained kind := by cases kind <;> trivial
      simpa [or_imp, forall_and, hretained] using ⟨ihl, ihr⟩
  | not _ ih => simpa [or_imp, forall_and, IsRetained] using ih
  | search s token => simp [Tree.leaf, IsRetained]
  | filter f token => simp [Tree.leaf, IsRetained]
  | nestedFilter f token h => simpa [IsRetained] using isRetained_of_isBlock h
  | set h => exact h.isRetained

/-- What a query evaluates stays as it is. -/
theorem IsEvaluationTree.isRetained {t : Tree Content} (h : IsEvaluationTree t) :
    ∀ c ∈ t.preorder, IsRetained c.kind := by
  cases h with
  | set h => exact h.isRetained
  | select h => simpa [IsRetained] using h.isRetained

/-- **The graph of a tree that is evaluated is one as it is evaluated.** -/
theorem IsEvaluationTree.isLowered {t : Tree Content} (h : IsEvaluationTree t) :
    IsLowered (ofTree t) := by
  obtain ⟨u, hu, rfl, hskipped, hids⟩ := ofTree_tree? t
  have hplaces : (ofTree (u.map Place.content)).places = u.preorder := by rw [places, hu]
  refine ⟨ofTree_isWellFormed h.saturated, by rw [hplaces]; exact hids, fun p hp => ?_,
    fun r hr => ?_⟩
  · rw [hplaces] at hp
    refine ⟨hskipped p hp, h.isRetained p.content ?_⟩
    rw [Tree.preorder_map]
    exact List.mem_map_of_mem hp
  · obtain ⟨s, hcopy, hholds, -⟩ := ofTree_holds (u.map Place.content)
    obtain rfl : rootId s = r := Option.some.inj (hholds.root.symm.trans hr)
    have hlabel : (s.map Spot.content).label.kind = s.label.kind := by rw [Tree.label_map]; rfl
    rw [hholds.laid.kind_root, ← hlabel, hcopy.content]
    exact h.isEnumerable

end Graph

open FilterQuery.Graph

/-- **Lowering loses nothing and invents nothing.**  Whatever is known about the
names in a query, lexemes without a fatal error are evaluated by a graph as it
should be.  It has the payloads of the query's graph that are not skipped, in
the same order and each below as many negations, and it is empty exactly if
there are none. -/
theorem lowering_keeps_the_payloads {known : Knowledge} {text : String} {ls : List Lexeme}
    (hclean : ∀ e ∈ (Draft.ofLexemes known text ls).errors, e.isFatal = false) :
    let draft := Draft.ofLexemes known text ls
    let g := draft.evaluation.value
    IsLowered g ∧ g.validate = [] ∧ payloadsOf g = payloadsOf draft.graph ∧
      (g.root = none ↔ payloadsOf draft.graph = []) := by
  intro draft g
  have hevaluation : draft.evaluation = draft.graph.evaluation := by
    rw [Draft.evaluation, if_neg]
    simpa using hclean
  -- Nothing to evaluate, if there are no payloads.
  have hempty : draft.graph.evaluation = pure {} → payloadsOf draft.graph = [] →
      IsLowered g ∧ g.validate = [] ∧ payloadsOf g = payloadsOf draft.graph ∧
        (g.root = none ↔ payloadsOf draft.graph = []) := by
    intro heq hnone
    have hg : g = {} := by rw [show g = draft.evaluation.value from rfl, hevaluation, heq]; rfl
    rw [hg, hnone]
    exact ⟨isLowered_empty, isLowered_empty.wellFormed.validate, rfl, by simp⟩
  rcases Draft.tree_of_clean hclean with hroot | ⟨u, hu, htree, hmarked⟩
  · have hnone : draft.graph.tree? = none := by rw [tree?, hroot]; rfl
    refine hempty (evaluation_of_prune_none (by rw [hnone]; rfl)) ?_
    rw [payloadsOf, hnone]
    rfl
  · have hpayloads : payloadsOf draft.graph = (prune u).toList.flatMap (payloads 0) := by
      rw [payloads_prune (saturated_of_isQueryTree htree), payloadsOf, hu]
      rfl
    rcases hmarked.evaluation_cases hu htree with ⟨hnone, heq⟩ | ⟨v, hv, hcondition, heq⟩
    · refine hempty heq ?_
      rw [hpayloads, hnone]
      rfl
    · have hshape : IsEvaluationTree (enumerated (promote v).value) :=
        hcondition.promote.enumerated
      have hg : g = ofTree (enumerated (promote v).value) := by
        rw [show g = draft.evaluation.value from rfl, hevaluation, heq]
      have hleft : payloadsOf draft.graph = payloads 0 v := by
        rw [hpayloads, hv, Option.toList_some, List.flatMap_singleton]
      have hroot : g.root ≠ none := by
        obtain ⟨s, -, hholds, -⟩ := ofTree_holds (enumerated (promote v).value)
        rw [hg, hholds.root]
        exact Option.some_ne_none _
      refine ⟨hg ▸ hshape.isLowered, hg ▸ hshape.isLowered.wellFormed.validate, ?_, ?_⟩
      · rw [hg, payloadsOf_ofTree, payloads_enumerated, payloads_promote, hleft]
      · rw [hleft]
        exact ⟨fun h => absurd h hroot, fun h => absurd h (hcondition.payloads_ne_nil 0)⟩

/-- The text `not (x:1 or a)` over a filter that is to be skipped: what is left
is `not a`. -/
theorem lowering_of_a_skipped_operand :
    let known : Knowledge :=
      { judge := fun _ _ => { skipped := true }, resolvesNested := false
        hasAggregator := fun _ => false }
    let a : Content := ⟨.search { text := "a" }, ⟨"a", 12, 1⟩⟩
    let ls : List Lexeme :=
      [.not ⟨"not", 0, 3⟩,
        .group [.filter { name := "x", operator := ":", value := "1" } none ⟨"x:1", 5, 3⟩,
          .or ⟨"or", 9, 2⟩, .word { text := "a" } a.token] ⟨"(x:1 or a)", 4, 10⟩]
    let draft := Draft.ofLexemes known "not (x:1 or a)" ls
    (∀ e ∈ draft.errors, e.isFatal = false) ∧ IsLowered draft.evaluation.value ∧
      payloadsOf draft.evaluation.value = [(a, 1)] := by
  intro known a ls draft
  have hclean : ∀ e ∈ draft.errors, e.isFatal = false := by decide +kernel
  obtain ⟨hlowered, -, hpayloads, -⟩ := lowering_keeps_the_payloads hclean
  exact ⟨hclean, hlowered, hpayloads.trans (by decide +kernel)⟩

end FilterQuery
