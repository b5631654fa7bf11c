import FilterQuery.Proofs.OptimizedGraphs

/-!
# Negation normal form

A graph is in negation normal form if no negation in it stands on a conjunction,
a disjunction or another negation.  Pushing goes down the graph once and looks
at each negation when it gets there: of several in a row it changes the last
one, right in front of a conjunction or disjunction, after it has passed the
others, and these stay in front of the dual.  Where two of them meet they vanish
in the end, so that one is left of an odd number and none of an even number.

The main statement says when this is enough.  Count in front of each conjunction
and disjunction the negations in a row, with the one that pushing brings there
from further up: an optimized graph is in negation normal form exactly if each
of these numbers is odd or zero.
-/

namespace FilterQuery.Graph

/-- The negations that are reached stand on nodes of certain kinds only. -/
def NegatesOnly (g : Graph) (allowed : NodeKind → Bool) : Prop :=
  ∀ i, g.Reached i → g.kind i = .not → ∀ j ∈ g.children i, allowed (g.kind j) = true

/-- No negation that is reached stands on a combinator. -/
def IsNegationNormal (g : Graph) : Prop := g.NegatesOnly fun kind => !kind.isCombinator

/-- The negations of a tree stand on nodes of certain kinds only. -/
inductive NegatesOnlyIn (allowed : NodeKind → Bool) : Tree Content → Prop where
  | node {c : Content} {ts : List (Tree Content)}
      (below : c.kind = .not → ∀ t ∈ ts, allowed t.label.kind = true)
      (all : ∀ t ∈ ts, NegatesOnlyIn allowed t) : NegatesOnlyIn allowed (.node c ts)

section Trees

variable {allowed : NodeKind → Bool}

/-- What a tree negates is what its root and the trees below negate. -/
theorem negatesOnlyIn_node {c : Content} {ts : List (Tree Content)} :
    NegatesOnlyIn allowed (.node c ts) ↔
      (c.kind = .not → ∀ t ∈ ts, allowed t.label.kind = true) ∧
        ∀ t ∈ ts, NegatesOnlyIn allowed t :=
  ⟨fun | .node below all => ⟨below, all⟩, fun ⟨below, all⟩ => .node below all⟩

variable {g : Graph} {s : Tree Spot}

/-- A node that is reached is the root of a part of the tree, with the same
negations. -/
theorem Holds.part_negatesOnlyIn (h : Holds g s) (hs : NegatesOnlyIn allowed (s.map Spot.content))
    {d : Nat} {i : NodeId} (hi : g.ReachedIn d i) :
    ∃ parent u, rootId u = i ∧ Laid g parent u ∧ NegatesOnlyIn allowed (u.map Spot.content) := by
  induction hi with
  | root hr => exact ⟨none, s, Option.some.inj (h.root.symm.trans hr), h.laid, hs⟩
  | child _ hj ih =>
      obtain ⟨parent, u, rfl, hlaid, hu⟩ := ih
      rw [hlaid.children_root] at hj
      obtain ⟨v, hv, rfl⟩ := List.mem_map.mp hj
      obtain ⟨spot, us⟩ := u
      rw [Tree.map_node, negatesOnlyIn_node] at hu
      exact ⟨_, v, rfl, hlaid.child hv, hu.2 _ (List.mem_map_of_mem hv)⟩

/-- What a graph negates its laid trees negate. -/
theorem Laid.negatesOnlyIn {parent : Option NodeId} (h : Laid g parent s)
    (hreached : g.Reached (rootId s)) (hg : g.NegatesOnly allowed) :
    NegatesOnlyIn allowed (s.map Spot.content) := by
  induction s generalizing parent with
  | node spot us ih =>
      have hchildren := h.children_root
      rw [Tree.map_node]
      refine .node (fun hnot u hu => ?_) fun u hu => ?_
      · obtain ⟨v, hv, rfl⟩ := List.mem_map.mp hu
        have hchild : rootId v ∈ g.children (rootId (.node spot us)) :=
          hchildren ▸ List.mem_map_of_mem hv
        have hallowed := hg _ hreached (h.kind_root.trans hnot) _ hchild
        rwa [(h.child hv).kind_root, ← label_map_content] at hallowed
      · obtain ⟨v, hv, rfl⟩ := List.mem_map.mp hu
        obtain ⟨d, hd⟩ := hreached
        have hchild : rootId v ∈ g.children (rootId (.node spot us)) :=
          hchildren ▸ List.mem_map_of_mem hv
        exact ih v hv (h.child hv) ⟨d + 1, hd.child hchild⟩

/-- **The negations of a graph are those of its tree.** -/
theorem Holds.negatesOnly_iff (h : Holds g s) :
    g.NegatesOnly allowed ↔ NegatesOnlyIn allowed (s.map Spot.content) := by
  constructor
  · intro hg
    exact h.laid.negatesOnlyIn ⟨0, .root h.root⟩ hg
  · rintro hs i ⟨d, hd⟩ hnot j hj
    obtain ⟨parent, u, rfl, hlaid, hu⟩ := h.part_negatesOnlyIn hs hd
    rw [hlaid.children_root] at hj
    obtain ⟨v, hv, rfl⟩ := List.mem_map.mp hj
    obtain ⟨spot, us⟩ := u
    rw [Tree.map_node, negatesOnlyIn_node] at hu
    have hallowed := hu.1 (hlaid.kind_root.symm.trans hnot) _ (List.mem_map_of_mem hv)
    rwa [(hlaid.child hv).kind_root, ← label_map_content]

end Trees

/-- The number of negations in front of the operands of a node, with `above` in
front of the node.  If `pushed`, then those in front of a conjunction or
disjunction bring one there. -/
def rowBelow (pushed : Bool) (above : Nat) : NodeKind → Nat
  | .not => above + 1
  | .and | .or => if pushed && 0 < above then 1 else 0
  | _ => 0

mutual

/-- How many negations in a row stand in front of each conjunction and
disjunction of a tree, with `above` in front of the tree. -/
def negationRows (pushed : Bool) (above : Nat) : Tree Content → List Nat
  | .node c ts =>
    (if c.kind.isBinaryCombinator then [above] else []) ++
      negationRowsAll pushed (rowBelow pushed above c.kind) ts

def negationRowsAll (pushed : Bool) (above : Nat) : List (Tree Content) → List Nat
  | [] => []
  | t :: ts => negationRows pushed above t ++ negationRowsAll pushed above ts

end

section Rows

variable {pushed : Bool} {above : Nat}

/-- The rows in trees are those in each of them. -/
theorem negationRowsAll_eq_flatMap (ts : List (Tree Content)) :
    negationRowsAll pushed above ts = ts.flatMap (negationRows pushed above) := by
  induction ts with
  | nil => rfl
  | cons t ts ih => rw [negationRowsAll, ih, List.flatMap_cons]

/-- A negation makes the row in front of its operand one longer. -/
theorem negationRows_not (token : Token) (t : Tree Content) :
    negationRows pushed above (.node ⟨.not, token⟩ [t]) = negationRows pushed (above + 1) t := by
  rw [negationRows, negationRowsAll_eq_flatMap, List.flatMap_singleton]
  rfl

/-- A conjunction or disjunction ends a row, and pushing begins another one
below it. -/
theorem negationRows_binary {kind : NodeKind} (hkind : kind.isBinaryCombinator = true)
    (token : Token) (ts : List (Tree Content)) :
    negationRows pushed above (.node ⟨kind, token⟩ ts) =
      above :: ts.flatMap (negationRows pushed (if pushed && 0 < above then 1 else 0)) := by
  rw [negationRows, negationRowsAll_eq_flatMap, if_pos hkind]
  cases kind <;> first | rfl | cases hkind

/-- In front of what is below any other node there is no row. -/
theorem negationRows_of_not_combinator {c : Content} (hkind : c.kind.isCombinator = false)
    (ts : List (Tree Content)) :
    negationRows pushed above (.node c ts) = ts.flatMap (negationRows pushed 0) := by
  obtain ⟨kind, token⟩ := c
  rw [negationRows, negationRowsAll_eq_flatMap]
  cases kind <;> first | rfl | cases hkind

end Rows

/-- A node is a negation, a combinator of two, or no combinator. -/
theorem kind_cases (kind : NodeKind) :
    kind = .not ∨ kind.isBinaryCombinator = true ∨ kind.isCombinator = false := by
  cases kind <;> simp [NodeKind.isBinaryCombinator, NodeKind.isCombinator]

/-- A saturated negation has its operand. -/
theorem Saturated.operand {token : Token} {ts : List (Tree Content)}
    (h : Saturated (.node ⟨.not, token⟩ ts)) : ∃ t, ts = [t] ∧ Saturated t := by
  obtain ⟨harity, hbelow⟩ := h
  obtain ⟨t, rfl⟩ := List.length_eq_one_iff.mp harity
  exact ⟨t, rfl, hbelow t List.mem_cons_self⟩

/-- What is below a saturated node is saturated. -/
theorem Saturated.of_child {c : Content} {ts : List (Tree Content)} (h : Saturated (.node c ts))
    {t : Tree Content} (ht : t ∈ ts) : Saturated t := by
  obtain ⟨-, hbelow⟩ := h
  exact hbelow t ht

/-- A saturated combinator of two has its operands. -/
theorem Saturated.operands {kind : NodeKind} (hkind : kind.isBinaryCombinator = true)
    {token : Token} {ts : List (Tree Content)} (h : Saturated (.node ⟨kind, token⟩ ts)) :
    ∃ a b, ts = [a, b] := by
  obtain ⟨harity, -⟩ := h
  exact List.length_eq_two.mp (harity.trans (arity_of_isBinaryCombinator hkind))

/-- Pushing changes a negation in front of a conjunction or disjunction, and
nothing else. -/
theorem Saturated.negated_cases {t : Tree Content} (h : Saturated t) :
    (∃ token token' kind dual a b, dual? kind = some dual ∧
      t = .node ⟨.not, token⟩ [.node ⟨kind, token'⟩ [a, b]] ∧
      negated t = .node ⟨dual, token'⟩ [.node ⟨.not, token⟩ [a], .node ⟨.not, token⟩ [b]]) ∨
    negated t = t ∧ ∀ token u, t = .node ⟨.not, token⟩ [u] →
      u.label.kind.isBinaryCombinator = false := by
  by_cases hrow : ∃ token u, t = .node ⟨.not, token⟩ [u] ∧
      u.label.kind.isBinaryCombinator = true
  · left
    obtain ⟨token, ⟨⟨kind, token'⟩, us⟩, rfl, hkind⟩ := hrow
    obtain ⟨a, b, rfl⟩ := (h.of_child List.mem_cons_self).operands hkind
    obtain ⟨dual, hdual⟩ : ∃ dual, dual? kind = some dual := by
      cases kind <;> first | exact ⟨_, rfl⟩ | cases hkind
    refine ⟨token, token', kind, dual, a, b, hdual, rfl, ?_⟩
    rw [negated, hdual]
  · right
    have hnone : ∀ token u, t = .node ⟨.not, token⟩ [u] →
        u.label.kind.isBinaryCombinator = false := by
      intro token u heq
      exact eq_false_of_ne_true fun hkind => hrow ⟨token, u, heq, hkind⟩
    refine ⟨?_, hnone⟩
    unfold negated
    split
    · next inner a b =>
        split
        · next hdual => cases (hnone _ _ rfl).symm.trans (isBinaryCombinator_of_dual hdual).1
        · rfl
    · rfl

/-- **Pushing takes one negation off each row**, those brought from further up
counted. -/
theorem Saturated.negationRows_pushedNots {t : Tree Content} (h : Saturated t) {above : Nat}
    (habove : above = 0 ∨ t.label.kind.isBinaryCombinator = false) :
    negationRows false above (pushedNots t) = (negationRows true above t).map Nat.pred := by
  induction t using Tree.height_induction generalizing above with | lower t ih => ?_
  have hall : ∀ ts : List (Tree Content), (∀ u ∈ ts, u.height < t.height ∧ Saturated u) →
      (ts.map pushedNots).flatMap (negationRows false 0) =
        (ts.flatMap (negationRows true 0)).map Nat.pred := by
    intro ts hts
    rw [List.flatMap_map, List.map_flatMap]
    refine List.flatMap_congr fun u hu => ?_
    obtain ⟨hlower, hfull⟩ := hts u hu
    exact ih u hlower hfull (.inl rfl)
  rcases h.negated_cases with ⟨token, token', kind, dual, a, b, hdual, rfl, heq⟩ | ⟨heq, hnone⟩
  · obtain ⟨hkind, hkind'⟩ := isBinaryCombinator_of_dual hdual
    have hinner := h.of_child List.mem_cons_self
    have ha : Saturated a := hinner.of_child (by simp)
    have hb : Saturated b := hinner.of_child (by simp)
    have hoperands := hall [.node ⟨.not, token⟩ [a], .node ⟨.not, token⟩ [b]] (by
      intro u hu
      simp only [List.mem_cons, List.not_mem_nil, or_false] at hu
      rcases hu with rfl | rfl
      · refine ⟨?_, .one rfl ha⟩
        simp only [Tree.height, Tree.heightBelow]
        omega
      · refine ⟨?_, .one rfl hb⟩
        simp only [Tree.height, Tree.heightBelow]
        omega)
    rw [pushedNots_eq, heq, Tree.label_node, Tree.children_node, negationRows_binary hkind',
      negationRows_not, negationRows_binary hkind, List.map_cons]
    refine congrArg (List.cons above) (hoperands.trans ?_)
    simp [negationRows_not]
  · obtain ⟨⟨kind, token⟩, ts⟩ := t
    rw [pushedNots_eq, heq, Tree.label_node, Tree.children_node]
    have hbelow : ∀ u ∈ ts, u.height < (Tree.node ⟨kind, token⟩ ts).height ∧ Saturated u :=
      fun u hu => ⟨Tree.height_lt_of_child hu, h.of_child hu⟩
    rcases kind_cases kind with rfl | hkind | hkind
    · obtain ⟨u, rfl, hu⟩ := h.operand
      have hlower := (hbelow u List.mem_cons_self).1
      rw [List.map_singleton, negationRows_not, negationRows_not]
      exact ih u hlower hu (.inr (hnone token u rfl))
    · have hzero : above = 0 := habove.resolve_right (by simp [hkind])
      rw [negationRows_binary hkind, negationRows_binary hkind, List.map_cons, hzero]
      exact congrArg (List.cons 0) (hall ts hbelow)
    · rw [negationRows_of_not_combinator hkind, negationRows_of_not_combinator hkind]
      exact hall ts hbelow

/-- Rewriting that keeps the rows below a node keeps those of the node. -/
theorem negationRows_map_children {f : Tree Content → Tree Content} {t : Tree Content}
    (h : ∀ u ∈ t.children, ∀ above, (negationRows false above (f u)).Perm
      (negationRows false above u)) (above : Nat) :
    (negationRows false above (.node t.label (t.children.map f))).Perm
      (negationRows false above t) := by
  obtain ⟨c, ts⟩ := t
  rw [negationRows, negationRows, negationRowsAll_eq_flatMap, negationRowsAll_eq_flatMap,
    List.flatMap_map]
  exact (List.Perm.flatMap_left _ fun u hu => h u hu _).append_left _

/-- Exchanging operands keeps the rows. -/
theorem negationRows_swapped (above : Nat) (t : Tree Content) :
    (negationRows false above (swapped t)).Perm (negationRows false above t) := by
  unfold swapped
  split
  · split
    · next c a b hcond =>
        rw [negationRows, negationRows, negationRowsAll_eq_flatMap, negationRowsAll_eq_flatMap]
        refine List.Perm.append_left _ ?_
        simpa using List.perm_append_comm
    · exact .refl _
  · exact .refl _

/-- **Swapping keeps the rows**, though not their order. -/
theorem negationRows_swappedNots (above : Nat) (t : Tree Content) :
    (negationRows false above (swappedNots t)).Perm (negationRows false above t) := by
  rw [swappedNots_eq]
  refine (negationRows_map_children (fun u hu above => ?_) above).trans
    (negationRows_swapped above t)
  have hchild := Tree.height_lt_of_child hu
  have hlower := height_swapped_le t
  exact negationRows_swappedNots above u
termination_by t.height

/-- A double negation is one negation over another. -/
theorem eq_of_doublyNegated {t u : Tree Content} (h : doublyNegated t = some u) :
    ∃ token token', t = .node ⟨.not, token⟩ [.node ⟨.not, token'⟩ [u]] := by
  unfold doublyNegated at h
  split at h
  · obtain rfl := Option.some.inj h
    exact ⟨_, _, rfl⟩
  · cases h

/-- What is below a double negation is saturated. -/
theorem Saturated.of_doublyNegated {t u : Tree Content} (h : Saturated t)
    (hdouble : doublyNegated t = some u) : Saturated u := by
  obtain ⟨token, token', rfl⟩ := eq_of_doublyNegated hdouble
  exact (h.of_child List.mem_cons_self).of_child List.mem_cons_self

/-- An operand that is negated once is none itself, and stays at the root. -/
theorem doublyNegated_of_not {token : Token} {u : Tree Content} (hu : Saturated u)
    (hdouble : doublyNegated (.node ⟨.not, token⟩ [u]) = none) :
    u.label.kind ≠ .not ∧ (collapsedNots u).label = u.label := by
  obtain ⟨⟨kind, token'⟩, us⟩ := u
  have hkind : kind ≠ .not := by
    rintro rfl
    obtain ⟨v, rfl, -⟩ := hu.operand
    cases hdouble
  refine ⟨hkind, ?_⟩
  have hnone : doublyNegated (.node ⟨kind, token'⟩ us) = none := by
    unfold doublyNegated
    split
    · next heq => exact absurd (congrArg (fun t => t.label.kind) heq) hkind
    · rfl
  rw [collapsedNots_eq, hnone]
  rfl

/-- **No negation is left on another.** -/
theorem Saturated.collapsedNots_negatesOnly {t : Tree Content} (h : Saturated t) :
    NegatesOnlyIn (· ≠ .not) (collapsedNots t) := by
  induction t using Tree.height_induction with | lower t ih => ?_
  rw [collapsedNots_eq]
  cases hdouble : doublyNegated t with
  | some u =>
      exact ih u (height_doublyNegated_lt hdouble) (h.of_doublyNegated hdouble)
  | none =>
      obtain ⟨⟨kind, token⟩, ts⟩ := t
      refine .node ?_ fun u hu => ?_
      · rintro rfl u hu
        obtain ⟨v, rfl, hv⟩ := h.operand
        obtain rfl := List.mem_singleton.mp hu
        obtain ⟨hkind, hlabel⟩ := doublyNegated_of_not hv hdouble
        simpa [hlabel] using hkind
      · obtain ⟨v, hv, rfl⟩ := List.mem_map.mp hu
        exact ih v (Tree.height_lt_of_child hv) (h.of_child hv)

/-- Two negations more in front of a tree make no difference to which rows are
even. -/
theorem even_negationRows_add_two (t : Tree Content) (above : Nat) :
    (∀ n ∈ negationRows false (above + 2) t, n % 2 = 0) ↔
      ∀ n ∈ negationRows false above t, n % 2 = 0 := by
  induction t generalizing above with
  | node c ts ih =>
      obtain ⟨kind, token⟩ := c
      rcases kind_cases kind with rfl | hkind | hkind
      · simp only [negationRows, negationRowsAll_eq_flatMap, List.forall_mem_append,
          List.forall_mem_flatMap]
        refine and_congr (by simp [NodeKind.isBinaryCombinator]) (forall₂_congr fun u hu => ?_)
        exact ih u hu (above + 1)
      · rw [negationRows_binary hkind, negationRows_binary hkind]
        simp
      · rw [negationRows_of_not_combinator hkind, negationRows_of_not_combinator hkind]

/-- **Collapsing leaves the last negation of an odd row.** -/
theorem Saturated.collapsedNots_iff {t : Tree Content} (h : Saturated t) :
    NegatesOnlyIn (fun kind => !kind.isCombinator) (collapsedNots t) ↔
      ∀ n ∈ negationRows false 0 t, n % 2 = 0 := by
  induction t using Tree.height_induction with | lower t ih => ?_
  rw [collapsedNots_eq]
  cases hdouble : doublyNegated t with
  | some u =>
      refine (ih u (height_doublyNegated_lt hdouble) (h.of_doublyNegated hdouble)).trans ?_
      obtain ⟨token, token', rfl⟩ := eq_of_doublyNegated hdouble
      rw [negationRows_not, negationRows_not]
      exact (even_negationRows_add_two u 0).symm
  | none =>
      obtain ⟨⟨kind, token⟩, ts⟩ := t
      have hbelow : (∀ u ∈ ts.map collapsedNots,
          NegatesOnlyIn (fun kind => !kind.isCombinator) u) ↔
            ∀ u ∈ ts, ∀ n ∈ negationRows false 0 u, n % 2 = 0 := by
        rw [List.forall_mem_map]
        exact forall₂_congr fun u hu => ih u (Tree.height_lt_of_child hu) (h.of_child hu)
      rw [Option.elim_none, Tree.label_node, Tree.children_node, negatesOnlyIn_node, hbelow]
      rcases kind_cases kind with rfl | hkind | hkind
      · obtain ⟨⟨⟨kind', token'⟩, us⟩, rfl, hu⟩ := h.operand
        obtain ⟨hnot, hlabel⟩ := doublyNegated_of_not hu hdouble
        rw [Tree.label_node] at hnot hlabel
        rw [negationRows_not]
        simp only [List.map_singleton, List.mem_singleton, forall_eq, forall_const, hlabel]
        rcases (kind_cases kind').resolve_left hnot with hkind | hkind
        · -- A single negation of a conjunction or disjunction, and an odd row.
          rw [negationRows_binary hkind, negationRows_binary hkind]
          simp [isCombinator_of_isBinaryCombinator hkind]
        · rw [negationRows_of_not_combinator hkind, negationRows_of_not_combinator hkind]
          simp [hkind]
      · have hne : kind ≠ .not := by rintro rfl; cases hkind
        rw [negationRows_binary hkind, List.forall_mem_cons, List.forall_mem_flatMap]
        simp [hne]
      · have hne : kind ≠ .not := by rintro rfl; cases hkind
        rw [negationRows_of_not_combinator hkind, List.forall_mem_flatMap]
        simp [hne]

/-- Of a row of odd length pushing and collapsing leave nothing. -/
theorem Saturated.optimized_iff {t : Tree Content} (h : Saturated t)
    {options : OptimizationOptions} (hpropagate : options.propagateNot = true) :
    NegatesOnlyIn (fun kind => !kind.isCombinator) (optimized options t) ↔
      ∀ n ∈ negationRows true 0 t, n = 0 ∨ n % 2 = 1 := by
  have hperm : (negationRows false 0 (moved options t)).Perm
      ((negationRows true 0 t).map Nat.pred) := by
    rw [← h.negationRows_pushedNots (.inl rfl), moved, if_pos hpropagate]
    split
    · exact negationRows_swappedNots 0 _
    · exact .refl _
  rw [optimized, (saturated_allowsRewriting.moved options t h).collapsedNots_iff]
  simp only [hperm.mem_iff, List.forall_mem_map]
  refine forall₂_congr fun n _ => ?_
  rw [Nat.pred_eq_sub_one]
  omega

variable {g : Graph}

/-- A well-formed graph says a saturated tree. -/
theorem IsWellFormed.saturated (hg : g.IsWellFormed) : ∀ t ∈ g.said?, Saturated t := by
  intro t ht
  cases hroot : g.root with
  | none =>
      rw [said?, tree?, hroot] at ht
      cases ht
  | some r =>
      obtain ⟨s, hs, hfull⟩ := hg.holds hroot
      rw [hs.said?] at ht
      obtain rfl := Option.some.inj ht
      exact hfull

/-- What an optimized graph negates can be read off the tree before. -/
theorem IsWellFormed.negatesOnly_optimize_iff (hg : g.IsWellFormed)
    (options : OptimizationOptions) {allowed : NodeKind → Bool} :
    (g.optimize options).value.NegatesOnly allowed ↔
      ∀ t ∈ g.said?, NegatesOnlyIn allowed (optimized options t) := by
  cases hroot : g.root with
  | none =>
      have hnone := not_reached_of_root_eq_none hroot
      rw [optimize_of_root_eq_none options hroot, Noted.value_pure, said?, tree?, hroot]
      simp [NegatesOnly, hnone]
  | some r =>
      obtain ⟨s, hs, -⟩ := hg.holds hroot
      obtain ⟨g', s', hrun, hs', hcontent⟩ := hs.optimize options
      rw [hrun, Noted.value_pure, hs'.negatesOnly_iff, hs.said?, hcontent]
      simp

/-- **When pushing gives a negation normal form.**  An optimized graph has no
negation on another one.  With negations pushed none is left on a conjunction or
disjunction either, exactly if in front of each of them there was an odd number
of negations in a row or none at all, where a conjunction or disjunction hands
one on to its operands if it has any in front of it. -/
theorem optimization_normalizes_rows_of_odd_length {g : Graph} (hg : g.IsWellFormed)
    {options : OptimizationOptions} (hpropagate : options.propagateNot = true) :
    let g' := (g.optimize options).value
    g'.NegatesOnly (· ≠ .not) ∧
      (g'.IsNegationNormal ↔ ∀ t ∈ g.said?, ∀ n ∈ negationRows true 0 t, n = 0 ∨ n % 2 = 1) := by
  constructor
  · refine (hg.negatesOnly_optimize_iff options).mpr fun t ht => ?_
    rw [optimized]
    exact (saturated_allowsRewriting.moved options t (hg.saturated t ht)).collapsedNots_negatesOnly
  · refine (hg.negatesOnly_optimize_iff options).trans ?_
    exact forall₂_congr fun t ht => (hg.saturated t ht).optimized_iff hpropagate

/-- Of three negations in front of a conjunction pushing and collapsing leave
none. -/
theorem optimization_of_three_negations :
    let a : Tree Content := .leaf ⟨.search ⟨"a", false, false⟩, {}⟩
    let b : Tree Content := .leaf ⟨.search ⟨"b", false, false⟩, {}⟩
    let not (t : Tree Content) : Tree Content := .node ⟨.not, {}⟩ [t]
    let g := ofTree (.node ⟨.select, {}⟩ [not (not (not (.node ⟨.and, {}⟩ [a, b])))])
    g.IsWellFormed ∧ (g.optimize ⟨true, false⟩).value.IsNegationNormal := by
  intro a b not g
  have hg : g.IsWellFormed :=
    ofTree_isWellFormed (.one rfl (.one rfl (.one rfl (.one rfl (.two rfl (.leaf rfl)
      (.leaf rfl))))))
  obtain ⟨-, hiff⟩ := optimization_normalizes_rows_of_odd_length hg
    (show (⟨true, false⟩ : OptimizationOptions).propagateNot = true from rfl)
  refine ⟨hg, hiff.mpr ?_⟩
  rw [ofTree_said?]
  decide +kernel

/-- Of two negations in front of a conjunction the first stays: pushing gets to
it before the second has made a disjunction of what they stand on, and nothing
below is left for it to vanish with. -/
theorem optimization_of_two_negations :
    let a : Tree Content := .leaf ⟨.search ⟨"a", false, false⟩, {}⟩
    let b : Tree Content := .leaf ⟨.search ⟨"b", false, false⟩, {}⟩
    let not (t : Tree Content) : Tree Content := .node ⟨.not, {}⟩ [t]
    let g := ofTree (.node ⟨.select, {}⟩ [not (not (.node ⟨.and, {}⟩ [a, b]))])
    g.IsWellFormed ∧ ¬ (g.optimize ⟨true, false⟩).value.IsNegationNormal := by
  intro a b not g
  have hg : g.IsWellFormed :=
    ofTree_isWellFormed (.one rfl (.one rfl (.one rfl (.two rfl (.leaf rfl) (.leaf rfl)))))
  have hdisjunction : optimized ⟨true, false⟩
        (.node ⟨.select, {}⟩ [not (not (.node ⟨.and, {}⟩ [a, b]))]) =
      .node ⟨.select, {}⟩ [not (.node ⟨.or, {}⟩ [not a, not b])] := by
    simp [optimized, moved, pushedNots_eq, collapsedNots_eq, negated, doublyNegated, dual?, a, b,
      not, Tree.leaf]
  refine ⟨hg, fun hnormal => ?_⟩
  have hbelow := (hg.negatesOnly_optimize_iff ⟨true, false⟩).mp hnormal _ (ofTree_said? _)
  rw [hdisjunction, negatesOnlyIn_node] at hbelow
  have hnot := hbelow.2 _ List.mem_cons_self
  rw [negatesOnlyIn_node] at hnot
  exact Bool.false_ne_true (hnot.1 rfl _ List.mem_cons_self)

end FilterQuery.Graph
