import FilterQuery.Proofs.Passes
import FilterQuery.Proofs.Surgery

/-!
# Optimizing graphs

The passes of optimization edit a graph in place; in terms of the trees that the
graph holds they are the rewritings of trees.  None of their edits fails in a
graph that holds a tree.
-/

namespace FilterQuery.Graph

/-- Wherever a tree hangs, the change at its root puts there what the function
makes of it, and gives back the root that is there then. -/
def RewritesRoot (change : NodeId → Edit NodeId) (f : Tree Content → Tree Content) : Prop :=
  ∀ (g : Graph) (parent : Option NodeId) (t : Tree Spot), Laid g parent t → (indices t).Nodup →
    Hangs g t parent → ∃ g' t', (change (rootId t)).run g = .ok (rootId t') g' ∧
      Rewritten g g' parent t t' ∧ t'.map Spot.content = f (t.map Spot.content)

/-- A change of a node and then of all that is below it. -/
theorem RewritesRoot.descend {change : NodeId → Edit NodeId} {below : NodeId → Edit Unit}
    {f h : Tree Content → Tree Content} (hchange : RewritesRoot change f)
    (hbelow : Rewrites below h) :
    Rewrites (fun id => do
        let current ← change id
        ((← get).children current).forM below)
      fun t => .node (f t).label ((f t).children.map h) := by
  intro g parent t hlaid hnodup hangs
  obtain ⟨g₁, t₁, hrun, hrewritten, hcontent⟩ := hchange g parent t hlaid hnodup hangs
  obtain ⟨s, us⟩ := t₁
  obtain ⟨g₂, us', hrun', hrest, hcontents⟩ :=
    hbelow.forM us g₁ [] hrewritten.laid hrewritten.nodup (hrewritten.hangs hangs)
  refine ⟨g₂, .node s us', ?_, hrewritten.trans hrest, ?_⟩
  · have hchildren := hrewritten.laid.children_root
    rw [run_bind_of_ok hrun]
    have hget : (do ((← get).children (rootId (.node s us))).forM below : Edit Unit).run g₁ =
        ((g₁.children (rootId (.node s us))).forM below).run g₁ := rfl
    rw [hget, hchildren]
    exact hrun'
  · dsimp only
    rw [← hcontent, Tree.map_node, Tree.map_node, hcontents]
    rfl

@[simp] theorem label_map_content (t : Tree Spot) :
    (t.map Spot.content).label.kind = t.label.kind := by
  rw [Tree.label_map]
  rfl

/-- The left operand alone is negated exactly if the graph says so. -/
theorem isNegatedLeft_pair {g : Graph} {parent : Option NodeId} {s : Spot} {a b : Tree Spot}
    (h : Laid g parent (.node s [a, b])) :
    Edit.isNegatedLeft g s.id =
      (s.kind.isBinaryCombinator && (a.label.kind = .not && b.label.kind ≠ .not)) := by
  have hkind : g.kind s.id = s.kind := h.kind_root
  have hchildren : g.children s.id = [rootId a, rootId b] := h.children_root
  have ha := (h.child (u := a) (by simp)).kind_root
  have hb := (h.child (u := b) (by simp)).kind_root
  simp only [Edit.isNegatedLeft, hkind, hchildren, ha, hb]

/-- Without two operands no left one is negated. -/
theorem isNegatedLeft_of_not_pair {g : Graph} {parent : Option NodeId} {s : Spot}
    {ts : List (Tree Spot)} (h : Laid g parent (.node s ts)) (hpair : ¬ ∃ a b, ts = [a, b]) :
    Edit.isNegatedLeft g s.id = false := by
  have hchildren : g.children s.id = ts.map rootId := h.children_root
  simp only [Edit.isNegatedLeft, hchildren, Bool.and_eq_false_iff]
  right
  split
  · next left right hids =>
      obtain ⟨a, b, rfl⟩ := Tree.map_eq_pair hids
      exact absurd ⟨a, b, rfl⟩ hpair
  · rfl

/-- The operands are exchanged if the left one alone is negated. -/
theorem swapped_pair (s : Spot) (a b : Tree Spot) :
    swapped ((Tree.node s [a, b]).map Spot.content) =
      if s.kind.isBinaryCombinator && (a.label.kind = .not && b.label.kind ≠ .not) then
        (Tree.node s [b, a]).map Spot.content
      else (Tree.node s [a, b]).map Spot.content := by
  simp only [Tree.map_node, List.map_cons, List.map_nil, swapped, label_map_content]
  rfl

/-- Without two operands nothing is exchanged. -/
theorem swapped_of_not_pair {c : Content} {ts : List (Tree Content)}
    (h : ¬ ∃ a b, ts = [a, b]) : swapped (.node c ts) = .node c ts := by
  unfold swapped
  split
  · next c' a b heq =>
      obtain ⟨-, rfl⟩ := Tree.node.inj heq
      exact absurd ⟨a, b, rfl⟩ h
  · rfl

/-- Exchanging the children of a node exchanges its trees. -/
theorem run_swapChildren {g : Graph} {parent : Option NodeId} {s : Spot} {a b : Tree Spot}
    (hlaid : Laid g parent (.node s [a, b])) (hnodup : (indices (.node s [a, b])).Nodup)
    (hangs : Hangs g (.node s [a, b]) parent) :
    ∃ g', (Edit.swapChildren s.id).run g = .ok () g' ∧
      Rewritten g g' parent (.node s [a, b]) (.node s [b, a]) := by
  have hchildren : g.children s.id = [rootId a, rootId b] := hlaid.children_root
  obtain ⟨hbound, hstored, hbelow⟩ := Laid.node_iff.mp hlaid
  have hrun : (Edit.swapChildren s.id).run g =
      .ok () (g.setChildren s.id [rootId b, rootId a]) := by
    simp only [Edit.swapChildren, EStateM.run, modify, modifyGet, MonadStateOf.modifyGet,
      EStateM.modifyGet, hchildren]
  have hnode := node_setChildren g hbound [rootId b, rootId a]
  have hperm : (indices (.node s [b, a])).Perm (indices (.node s [a, b])) := by
    simpa using List.perm_append_comm
  have hs : s.id ∉ indicesAll [a, b] := by
    rw [indices_node, List.nodup_cons] at hnodup
    exact hnodup.1
  refine ⟨_, hrun, ?_, hperm.nodup_iff.mpr hnodup, fun i hi => .inl (hperm.mem_iff.mp hi), by simp,
    fun i _ hi _ => ?_, ?_, ?_⟩
  · refine .node (by simpa using hbound) ?_ fun u hu => ?_
    · rw [hnode, if_pos rfl, hstored]
      rfl
    · have hu' : u ∈ [a, b] := by simpa [or_comm] using hu
      refine (hbelow u hu').frame (by simp) fun i hi => ?_
      rw [hnode, if_neg]
      rintro rfl
      exact hs (mem_indicesAll.mpr ⟨u, hu', hi⟩)
  · rw [hnode, if_neg]
    rintro rfl
    exact hi (by simp)
  · rintro p before after rfl hp
    have hne : p ≠ s.id := by
      rintro rfl
      exact hp.off (by simp)
    have hlist := hp.children
    rw [rootId_node] at hlist ⊢
    rw [hnode, if_neg hne, ← hlist]
    rfl
  · cases hangs with
    | root h => simpa using h
    | child h => simp

/-- The pass that exchanges operands does what exchanging does to the tree. -/
theorem swap_rewrites : RewritesRoot
    (fun id => do
      if Edit.isNegatedLeft (← get) id then Edit.swapChildren id
      return id)
    swapped := by
  intro g parent t hlaid hnodup hangs
  have hrun : ∀ g : Graph, (do
      if Edit.isNegatedLeft (← get) (rootId t) then Edit.swapChildren (rootId t)
      return rootId t : Edit NodeId).run g =
        if Edit.isNegatedLeft g (rootId t) then
          (do Edit.swapChildren (rootId t); return rootId t : Edit NodeId).run g
        else .ok (rootId t) g := by
    intro g
    have hget : ∀ (next : Graph → Edit NodeId), (do next (← get) : Edit NodeId).run g =
        (next g).run g := fun _ => rfl
    rw [hget]
    split <;> rfl
  obtain ⟨s, ts⟩ := t
  by_cases hpair : ∃ a b, ts = [a, b]
  · obtain ⟨a, b, rfl⟩ := hpair
    have hcond := isNegatedLeft_pair hlaid
    cases hleft : Edit.isNegatedLeft g s.id with
    | true =>
        obtain ⟨g', hswap, hrewritten⟩ := run_swapChildren hlaid hnodup hangs
        refine ⟨g', .node s [b, a], ?_, hrewritten, ?_⟩
        · rw [hrun, rootId_node, if_pos hleft, run_bind_of_ok hswap]
          rfl
        · rw [swapped_pair, ← hcond, if_pos hleft]
    | false =>
        refine ⟨g, _, ?_, .refl hlaid hnodup hangs, ?_⟩
        · rw [hrun, rootId_node, if_neg (by simp [hleft])]
        · rw [swapped_pair, ← hcond, if_neg (by simp [hleft])]
  · have hleft := isNegatedLeft_of_not_pair hlaid hpair
    refine ⟨g, _, ?_, .refl hlaid hnodup hangs, ?_⟩
    · rw [hrun, rootId_node, if_neg (by simp [hleft])]
    · rw [Tree.map_node, swapped_of_not_pair]
      rintro ⟨a, b, hmap⟩
      exact hpair (Tree.map_eq_pair hmap)

/-- A node is a double negation in the graph exactly if it is one in the
tree. -/
theorem doublyNegated?_cases {g : Graph} {parent : Option NodeId} {t : Tree Spot}
    (h : Laid g parent t) :
    (∃ s s' u, t = .node s [.node s' [u]] ∧ s.kind = .not ∧ s'.kind = .not) ∨
      Edit.doublyNegated? g (rootId t) = none ∧ doublyNegated (t.map Spot.content) = none := by
  by_cases hshape : ∃ s s' u, t = .node s [.node s' [u]] ∧ s.kind = .not ∧ s'.kind = .not
  · exact .inl hshape
  · refine .inr ⟨?_, ?_⟩
    · have hkind := h.kind_root
      have hchildren := h.children_root
      obtain ⟨s, ts⟩ := t
      unfold Edit.doublyNegated?
      split
      · next inner hnot hinner =>
          obtain ⟨v, rfl, rfl⟩ := List.map_eq_singleton_iff.mp (hchildren.symm.trans hinner)
          obtain ⟨s', us⟩ := v
          have hv := h.child (u := .node s' us) (by simp)
          split
          · next operand hnot' hoperand =>
              obtain ⟨u, rfl, -⟩ :=
                List.map_eq_singleton_iff.mp (hv.children_root.symm.trans hoperand)
              exact absurd
                ⟨s, s', u, rfl, hkind.symm.trans hnot, hv.kind_root.symm.trans hnot'⟩ hshape
          · rfl
      · rfl
    · unfold doublyNegated
      split
      · next token token' operand heq =>
          exfalso
          obtain ⟨s, ts⟩ := t
          rw [Tree.map_node, Tree.node.injEq] at heq
          obtain ⟨hs, hts⟩ := heq
          obtain ⟨v, rfl, hv⟩ := List.map_eq_singleton_iff.mp hts
          obtain ⟨s', us⟩ := v
          rw [Tree.map_node, Tree.node.injEq] at hv
          obtain ⟨hs', hus⟩ := hv
          obtain ⟨u, rfl, -⟩ := List.map_eq_singleton_iff.mp hus
          exact hshape ⟨s, s', u, rfl, congrArg Content.kind hs, congrArg Content.kind hs'⟩
      · rfl

/-- What is below two nodes takes the place of the upper one. -/
theorem run_replace_grandchild {g : Graph} {parent : Option NodeId} {s s' : Spot} {u : Tree Spot}
    (hlaid : Laid g parent (.node s [.node s' [u]]))
    (hnodup : (indices (.node s [.node s' [u]])).Nodup)
    (hangs : Hangs g (.node s [.node s' [u]]) parent) :
    ∃ g', (Edit.replace s.id (rootId u)).run g = .ok () g' ∧
      Rewritten g g' parent (.node s [.node s' [u]]) u := by
  have hinner := hlaid.child (u := .node s' [u]) (by simp)
  have hu := hinner.child (u := u) (by simp)
  have hchildren : g.children s.id = [s'.id] := hlaid.children_root
  have hchildren' : g.children s'.id = [rootId u] := hinner.children_root
  have hbound' : s'.id < g.nodes.size := hinner.root_lt
  obtain ⟨hs, hs', hnu⟩ : (s.id ≠ s'.id ∧ s.id ∉ indices u) ∧ s'.id ∉ indices u ∧
      (indices u).Nodup := by
    simpa using hnodup
  have hru : rootId u ∈ indices u := rootId_mem_indices u
  have hne : s.id ≠ rootId u := fun heq => hs.2 (heq ▸ hru)
  have hne' : s'.id ≠ rootId u := fun heq => hs' (heq ▸ hru)
  have hsub : ∀ i ∈ indices u, i ∈ indices (.node s [.node s' [u]]) := fun i hi => by simp [hi]
  let g₁ := (g.setChildren s'.id []).setParent (rootId u) none
  have hremove : (Edit.removeChild s'.id (rootId u)).run g = .ok () g₁ :=
    run_removeChild (hchildren'.trans (List.nil_append _).symm) (by simp)
  have hnode : ∀ i, g₁.node i = if i = rootId u then { g.node i with parent := none }
      else if i = s'.id then { g.node i with children := [] } else g.node i := by
    intro i
    rw [node_setParent _ (by simpa using hu.root_lt), node_setChildren _ hbound']
    by_cases hi : i = rootId u
    · simp [hi, Ne.symm hne']
    · simp [hi]
  have hkept : ∀ i, i < g.nodes.size → i ∉ indices (.node s [.node s' [u]]) →
      g₁.node i = g.node i := by
    intro i _ hi
    rw [hnode, if_neg, if_neg]
    · rintro rfl
      exact hi (by simp)
    · rintro rfl
      exact hi (hsub _ hru)
  have hnode_s : g₁.node s.id = g.node s.id := by
    rw [hnode, if_neg hne, if_neg hs.1]
  have hlaid' : Laid g₁ none u := by
    refine hu.reparent hnu (by simp [g₁]) ?_ fun i hi hir => ?_
    · rw [hnode, if_pos rfl]
    · rw [hnode, if_neg hir, if_neg]
      rintro rfl
      exact hs' hi
  have hstart : (Edit.replace s.id (rootId u)).run g = (Edit.replace s.id (rootId u)).run g₁ :=
    run_replace_of_owner hne hu.parent_root (Ne.symm hs.1) hremove hlaid'.parent_root
  have hgrows : g.nodes.size ≤ g₁.nodes.size := by simp [g₁]
  have hroot₁ : g₁.root = g.root := rfl
  have hmembers : ∀ i ∈ indices u,
      i ∈ indices (.node s [.node s' [u]]) ∧ i ≠ s.id ∨ g.nodes.size ≤ i := by
    intro i hi
    refine .inl ⟨hsub i hi, ?_⟩
    rintro rfl
    exact hs.2 hi
  obtain ⟨g', hrun, hrewritten⟩ :=
    run_replace_ready hlaid hangs hgrows hroot₁ hkept hnode_s hlaid' hnu hmembers (by
        intro i hi _
        rw [rootId_node, hchildren, List.mem_singleton] at hi
        subst hi
        exact ⟨by simp, hs'⟩)
  exact ⟨g', hstart.trans hrun, hrewritten⟩

/-- Below two negations the graph finds the operand. -/
theorem doublyNegated?_eq_some {g : Graph} {parent : Option NodeId} {s s' : Spot} {u : Tree Spot}
    (h : Laid g parent (.node s [.node s' [u]])) (hs : s.kind = .not) (hs' : s'.kind = .not) :
    Edit.doublyNegated? g s.id = some (rootId u) := by
  have hinner := h.child (u := .node s' [u]) (by simp)
  have hkind : g.kind s.id = s.kind := h.kind_root
  have hkind' : g.kind s'.id = s'.kind := hinner.kind_root
  have hchildren : g.children s.id = [s'.id] := h.children_root
  have hchildren' : g.children s'.id = [rootId u] := hinner.children_root
  simp only [Edit.doublyNegated?, hkind, hkind', hs, hs', hchildren, hchildren']

/-- Below two negations the tree has the operand. -/
theorem doublyNegated_eq_some {s s' : Spot} {u : Tree Spot} (hs : s.kind = .not)
    (hs' : s'.kind = .not) :
    doublyNegated ((Tree.node s [.node s' [u]]).map Spot.content) = some (u.map Spot.content) := by
  obtain ⟨id, kind, token, skipped⟩ := s
  obtain ⟨id', kind', token', skipped'⟩ := s'
  dsimp only at hs hs'
  subst hs hs'
  rfl

/-- **Collapsing double negations in the graph collapses them in the tree.** -/
theorem collapseNot_rewrites (fuel : Nat) :
    Rewrites (Edit.collapseNot fuel) (collapseNots fuel) := by
  induction fuel with
  | zero =>
      intro g parent t hlaid hnodup hangs
      exact ⟨g, t, rfl, .refl hlaid hnodup hangs, rfl⟩
  | succ fuel ih =>
      intro g parent t hlaid hnodup hangs
      have hcollapsed : ∀ operand, Edit.doublyNegated? g (rootId t) = some operand →
          (Edit.collapseNot (fuel + 1) (rootId t)).run g = (do
            Edit.replace (rootId t) operand
            Edit.collapseNot fuel operand : Edit Unit).run g := by
        intro operand h
        simp only [Edit.collapseNot, EStateM.run, bind, EStateM.bind, get, getThe, MonadStateOf.get,
          EStateM.get, h]
      have hkept : Edit.doublyNegated? g (rootId t) = none →
          (Edit.collapseNot (fuel + 1) (rootId t)).run g =
            ((g.children (rootId t)).forM (Edit.collapseNot fuel)).run g := by
        intro h
        simp only [Edit.collapseNot, EStateM.run, bind, EStateM.bind, get, getThe, MonadStateOf.get,
          EStateM.get, h]
      rcases doublyNegated?_cases hlaid with ⟨s, s', u, rfl, hs, hs'⟩ | ⟨hnone, hnone'⟩
      · obtain ⟨g₁, hreplace, hfirst⟩ := run_replace_grandchild hlaid hnodup hangs
        obtain ⟨g₂, u', hrun', hrest, hcontent⟩ :=
          ih g₁ parent u hfirst.laid hfirst.nodup (hfirst.hangs hangs)
        refine ⟨g₂, u', ?_, hfirst.trans hrest, ?_⟩
        · rw [hcollapsed _ (doublyNegated?_eq_some hlaid hs hs')]
          exact (run_bind_of_ok hreplace).trans hrun'
        · rw [hcontent, collapseNots, doublyNegated_eq_some hs hs']
      · obtain ⟨s, ts⟩ := t
        obtain ⟨g', ts', hrun', hrewritten, hcontents⟩ := ih.forM ts g [] hlaid hnodup hangs
        refine ⟨g', .node s ts', ?_, hrewritten, ?_⟩
        · rw [hkept hnone, hlaid.children_root]
          exact hrun'
        · rw [collapseNots, hnone', Tree.map_node, Tree.map_node, hcontents]
          rfl

/-- A node is a negated pair in the graph exactly if it is one in the tree. -/
theorem negatedPair?_cases {g : Graph} {parent : Option NodeId} {t : Tree Spot}
    (h : Laid g parent t) :
    (∃ s s' a b dual, t = .node s [.node s' [a, b]] ∧ s.kind = .not ∧ dual? s'.kind = some dual) ∨
      Edit.negatedPair? g (rootId t) = none ∧
        negated (t.map Spot.content) = t.map Spot.content := by
  by_cases hshape : ∃ s s' a b dual, t = .node s [.node s' [a, b]] ∧ s.kind = .not ∧
      dual? s'.kind = some dual
  · exact .inl hshape
  · refine .inr ⟨?_, ?_⟩
    · have hkind := h.kind_root
      have hchildren := h.children_root
      obtain ⟨s, ts⟩ := t
      unfold Edit.negatedPair?
      split
      · next inner hnot hinner =>
          obtain ⟨v, rfl, rfl⟩ := List.map_eq_singleton_iff.mp (hchildren.symm.trans hinner)
          obtain ⟨s', us⟩ := v
          have hv := h.child (u := .node s' us) (by simp)
          split
          · next dual a b hdual hpair =>
              obtain ⟨u, u', rfl⟩ := Tree.map_eq_pair (hv.children_root.symm.trans hpair)
              rw [hv.kind_root] at hdual
              exact absurd ⟨s, s', u, u', dual, rfl, hkind.symm.trans hnot, hdual⟩ hshape
          · rfl
      · rfl
    · unfold negated
      split
      · next token inner a b heq =>
          split
          · next dual hdual =>
              exfalso
              obtain ⟨s, ts⟩ := t
              rw [Tree.map_node, Tree.node.injEq] at heq
              obtain ⟨hs, hts⟩ := heq
              obtain ⟨v, rfl, hv⟩ := List.map_eq_singleton_iff.mp hts
              obtain ⟨s', us⟩ := v
              rw [Tree.map_node, Tree.node.injEq] at hv
              obtain ⟨rfl, hus⟩ := hv
              obtain ⟨u, u', rfl⟩ := Tree.map_eq_pair hus
              exact hshape ⟨s, s', u, u', dual, rfl, congrArg Content.kind hs, hdual⟩
          · exact heq.symm
      · rfl

/-- Below a negation the graph finds the operands of a conjunction or
disjunction. -/
theorem negatedPair?_eq_some {g : Graph} {parent : Option NodeId} {s s' : Spot} {a b : Tree Spot}
    {dual : NodeKind} (h : Laid g parent (.node s [.node s' [a, b]])) (hs : s.kind = .not)
    (hs' : dual? s'.kind = some dual) :
    Edit.negatedPair? g s.id = some (s'.id, dual, rootId a, rootId b) := by
  have hinner := h.child (u := .node s' [a, b]) (by simp)
  have hkind : g.kind s.id = s.kind := h.kind_root
  have hkind' : g.kind s'.id = s'.kind := hinner.kind_root
  have hchildren : g.children s.id = [s'.id] := h.children_root
  have hchildren' : g.children s'.id = [rootId a, rootId b] := hinner.children_root
  simp only [Edit.negatedPair?, hkind, hkind', hs, hs', hchildren, hchildren']

/-- The negation of a tree, given to a node as a further child. -/
theorem run_addNegated {g : Graph} {p : NodeId} {u : Tree Spot} (token : Token)
    (hlaid : Laid g none u) (hnodup : (indices u).Nodup) (hbound : p < g.nodes.size)
    (hoff : p ∉ indices u) :
    ∃ g', (Edit.addNegated p (rootId u) token).run g = .ok () g' ∧
      g'.nodes.size = g.nodes.size + 1 ∧ g'.root = g.root ∧
      Laid g' (some p) (.node ⟨g.nodes.size, .not, token, false⟩ [u]) ∧
      g'.node p = { g.node p with children := (g.node p).children ++ [g.nodes.size] } ∧
      ∀ i, i < g.nodes.size → i ≠ p → i ∉ indices u → g'.node i = g.node i := by
  let new : Spot := ⟨g.nodes.size, .not, token, false⟩
  let g₁ := (g.add .not token).1
  have hnew : new.id ∉ indices u := fun hmem => Nat.lt_irrefl _ (hlaid.index_lt _ hmem)
  have hlaid₁ : Laid g₁ none u := by
    refine hlaid.frame (by simp [g₁]) fun i hi => ?_
    rw [node_add, if_neg (Nat.ne_of_lt (hlaid.index_lt i hi))]
  have hnode₁ : ∀ i, i < g.nodes.size → g₁.node i = g.node i := fun i hi => by
    rw [node_add, if_neg (Nat.ne_of_lt hi)]
  have htaken := hlaid₁.adopted hnodup (p := new.id) (by simp [g₁, new]) hnew
  have hnegation : Laid (g₁.addChild new.id (rootId u)) none (.node new [u]) := by
    refine Adopted.laid (s := new) htaken (by simp [g₁, new]) ?_
    rw [node_add, if_pos rfl]
    rfl
  have hgiven := hnegation.adopted (p := p) (by simpa using ⟨hnew, hnodup⟩)
    (by simpa [g₁] using Nat.lt_succ_of_lt hbound)
    (by simpa using ⟨Nat.ne_of_lt hbound, hoff⟩)
  refine ⟨_, rfl, by simp, rfl, hgiven.below _ (List.mem_singleton.mpr rfl), ?_,
    fun i hi hip hiu => ?_⟩
  · have howner := hgiven.owner
    rw [htaken.frame p (Nat.ne_of_lt hbound) (by simpa using hoff), hnode₁ p hbound] at howner
    exact howner
  · have hframe := hgiven.frame i hip (by simpa using ⟨Nat.ne_of_lt hi, hiu⟩)
    rw [htaken.frame i (Nat.ne_of_lt hi) (by simpa using hiu), hnode₁ i hi] at hframe
    exact hframe

/-- The operands of a node that is detached are loose trees, and nothing off the
node and their roots has changed. -/
theorem run_detach_pair {g : Graph} {parent : Option NodeId} {s : Spot} {a b : Tree Spot}
    (hlaid : Laid g parent (.node s [a, b])) (hnodup : (indices (.node s [a, b])).Nodup) :
    ∃ g', (Edit.detach s.id).run g = .ok () g' ∧ g'.nodes.size = g.nodes.size ∧ g'.root = g.root ∧
      Laid g' none a ∧ Laid g' none b ∧ g'.parent s.id = none ∧
      ∀ i, i ∉ indices (.node s [a, b]) → g'.node i = g.node i := by
  obtain ⟨g', hrun, hsize, hroot, hself, hnode⟩ := run_detach hlaid.root_lt
  have hchildren : g.children s.id = [rootId a, rootId b] := hlaid.children_root
  obtain ⟨hs, hna, hnb, hab⟩ : (s.id ∉ indices a ∧ s.id ∉ indices b) ∧ (indices a).Nodup ∧
      (indices b).Nodup ∧ List.Disjoint (indices a) (indices b) := by
    simpa [List.nodup_append'] using hnodup
  rw [rootId_node, hchildren] at hnode
  -- An operand is a loose tree, whichever of the two it is.
  have hloose : ∀ u ∈ [a, b], (indices u).Nodup → s.id ∉ indices u →
      (∀ i ∈ [rootId a, rootId b], i ∈ indices u → i = rootId u) → Laid g' none u := by
    intro u hu hnu hsu hroots
    have hbelow := hlaid.child (u := u) hu
    have hlisted : rootId u ∈ [rootId a, rootId b] := List.mem_map_of_mem hu
    refine hbelow.reparent hnu (Nat.le_of_eq hsize.symm) ?_ fun i hi hir => ?_
    · have hne : rootId u ≠ s.id := fun heq => hsu (heq ▸ rootId_mem_indices u)
      rw [hnode _ hne, if_pos ⟨hlisted, hbelow.parent_root⟩]
    · have hne : i ≠ s.id := fun heq => hsu (heq ▸ hi)
      rw [hnode i hne, if_neg]
      rintro ⟨hmem, -⟩
      exact hir (hroots i hmem hi)
  refine ⟨g', hrun, hsize, hroot, hloose a (by simp) hna hs.1 ?_, hloose b (by simp) hnb hs.2 ?_,
    ?_, fun i hi => ?_⟩
  · intro i hi hia
    rcases List.mem_pair.mp hi with rfl | rfl
    · rfl
    · exact absurd (rootId_mem_indices b) fun hib => hab hia hib
  · intro i hi hib
    rcases List.mem_pair.mp hi with rfl | rfl
    · exact absurd (rootId_mem_indices a) fun hia => hab hia hib
    · rfl
  · rw [rootId_node] at hself
    rw [Graph.parent, hself]
  · simp only [indices_node, indicesAll_cons, indicesAll_nil, List.append_nil, List.mem_cons,
      List.mem_append, not_or] at hi
    rw [hnode i hi.1, if_neg]
    rintro ⟨hmem, -⟩
    rcases List.mem_pair.mp hmem with rfl | rfl
    · exact hi.2.1 (rootId_mem_indices a)
    · exact hi.2.2 (rootId_mem_indices b)

/-- The new conjunction or disjunction of the negations of two loose trees. -/
def negatedPair (g : Graph) (kind : NodeKind) (token token' : Token) (a b : Tree Spot) :
    Tree Spot :=
  .node ⟨g.nodes.size, kind, token', false⟩
    [.node ⟨g.nodes.size + 1, .not, token, false⟩ [a],
      .node ⟨g.nodes.size + 2, .not, token, false⟩ [b]]

/-- A negated pair has the indices of its operands and new ones. -/
theorem mem_indices_negatedPair {g : Graph} {kind : NodeKind} {token token' : Token}
    {a b : Tree Spot} {i : NodeId} (h : i ∈ indices (negatedPair g kind token token' a b)) :
    i ∈ indices a ∨ i ∈ indices b ∨ g.nodes.size ≤ i := by
  have hcases : i = g.nodes.size ∨ i = g.nodes.size + 1 ∨ i ∈ indices a ∨
      i = g.nodes.size + 2 ∨ i ∈ indices b := by
    simpa [negatedPair] using h
  rcases hcases with rfl | rfl | ha | rfl | hb
  · exact .inr (.inr (Nat.le_refl _))
  · exact .inr (.inr (Nat.le_add_right _ _))
  · exact .inl ha
  · exact .inr (.inr (Nat.le_add_right _ _))
  · exact .inr (.inl hb)

/-- A negated pair has no index twice. -/
theorem nodup_negatedPair {g : Graph} {a b : Tree Spot} (kind : NodeKind) (token token' : Token)
    (ha : ∀ k, g.nodes.size + k ∉ indices a) (hb : ∀ k, g.nodes.size + k ∉ indices b)
    (hna : (indices a).Nodup) (hnb : (indices b).Nodup)
    (hab : List.Disjoint (indices a) (indices b)) :
    (indices (negatedPair g kind token token' a b)).Nodup := by
  simp only [negatedPair, indices_node, indicesAll_cons, indicesAll_nil, List.append_nil,
    List.nodup_cons, List.nodup_append', List.cons_append, List.mem_cons, List.mem_append, not_or]
  refine ⟨⟨by simp, ha 0, by simp, hb 0⟩, ⟨ha 1, by simp, hb 1⟩, hna, ⟨hb 2, hnb⟩, ?_⟩
  rw [List.disjoint_cons_right]
  exact ⟨ha 2, hab⟩

/-- Adding a negated pair lays it at the end of the graph. -/
theorem run_addNegatedPair {g : Graph} {a b : Tree Spot} (kind : NodeKind) (token token' : Token)
    (ha : Laid g none a) (hb : Laid g none b) (hna : (indices a).Nodup) (hnb : (indices b).Nodup)
    (hab : List.Disjoint (indices a) (indices b)) :
    ∃ g', (do
        let pair ← Edit.add kind token'
        Edit.addNegated pair (rootId a) token
        Edit.addNegated pair (rootId b) token
        return pair : Edit NodeId).run g = .ok g.nodes.size g' ∧
      g'.nodes.size = g.nodes.size + 3 ∧ g'.root = g.root ∧
      Laid g' none (negatedPair g kind token token' a b) ∧
      (indices (negatedPair g kind token token' a b)).Nodup ∧
      ∀ i, i < g.nodes.size → i ∉ indices a → i ∉ indices b → g'.node i = g.node i := by
  let new : Spot := ⟨g.nodes.size, kind, token', false⟩
  let not₁ : Spot := ⟨g.nodes.size + 1, .not, token, false⟩
  let not₂ : Spot := ⟨g.nodes.size + 2, .not, token, false⟩
  have hfresh : ∀ u : Tree Spot, Laid g none u → ∀ k, g.nodes.size + k ∉ indices u :=
    fun u hu k hmem => Nat.not_lt.mpr (Nat.le_add_right _ k) (hu.index_lt _ hmem)
  -- The new node.
  let g₁ := (g.add kind token').1
  have hsize₁ : g₁.nodes.size = g.nodes.size + 1 := by simp [g₁]
  have hnode₁ : ∀ i, i < g.nodes.size → g₁.node i = g.node i := fun i hi => by
    rw [node_add, if_neg (Nat.ne_of_lt hi)]
  have hnew₁ : g₁.node new.id = new.node [] none := by
    rw [node_add, if_pos rfl]
    rfl
  have hlaid₁ : ∀ u, Laid g none u → Laid g₁ none u := fun u hu =>
    hu.frame (by omega) fun i hi => hnode₁ i (hu.index_lt i hi)
  -- The negation of the left tree.
  obtain ⟨g₂, hrun₂, hsize₂, hroot₂, hleft₂, hnew₂, hnode₂⟩ :=
    run_addNegated (p := new.id) token (hlaid₁ a ha) hna
      (by rw [hsize₁]; exact Nat.lt_succ_self _) (hfresh a ha 0)
  rw [hsize₁] at hsize₂ hleft₂ hnew₂ hnode₂
  have hb₂ : Laid g₂ none b := (hlaid₁ b hb).frame (by omega) fun i hi =>
    hnode₂ i (Nat.lt_succ_of_lt (hb.index_lt i hi)) (Nat.ne_of_lt (hb.index_lt i hi))
      fun hia => hab hia hi
  -- The negation of the right tree.
  obtain ⟨g₃, hrun₃, hsize₃, hroot₃, hright₃, hnew₃, hnode₃⟩ :=
    run_addNegated (p := new.id) token hb₂ hnb
      (by rw [hsize₂]; exact Nat.lt_succ_of_lt (Nat.lt_succ_self _)) (hfresh b hb 0)
  rw [hsize₂] at hsize₃ hright₃ hnew₃ hnode₃
  have hleft₃ : Laid g₃ (some new.id) (.node not₁ [a]) := by
    refine hleft₂.frame (by omega) fun i hi => ?_
    have hcases : i = not₁.id ∨ i ∈ indices a := by simpa using hi
    rcases hcases with rfl | hia
    · exact hnode₃ _ (Nat.lt_succ_self _) (Nat.succ_ne_self _) (hfresh b hb 1)
    · have hia' := ha.index_lt i hia
      exact hnode₃ i (Nat.lt_add_right 2 hia') (Nat.ne_of_lt hia') fun hib => hab hia hib
  refine ⟨g₃, ?_, hsize₃, by rw [hroot₃, hroot₂]; rfl, ?_, ?_, fun i hi hia hib => ?_⟩
  · have hadd : (Edit.add kind token').run g = .ok new.id g₁ := rfl
    rw [run_bind_of_ok hadd, run_bind_of_ok hrun₂, run_bind_of_ok hrun₃]
    rfl
  · have hbound : new.id < g₃.nodes.size := hsize₃ ▸ Nat.lt_add_right 2 (Nat.lt_succ_self _)
    refine .node hbound ?_ fun u hu => ?_
    · rw [hnew₃, hnew₂, hnew₁]
      rfl
    · rcases List.mem_pair.mp hu with rfl | rfl
      · exact hleft₃
      · exact hright₃
  · exact nodup_negatedPair kind token token' (hfresh a ha) (hfresh b hb) hna hnb hab
  · rw [hnode₃ i (Nat.lt_add_right 2 hi) (Nat.ne_of_lt hi) hib,
      hnode₂ i (Nat.lt_succ_of_lt hi) (Nat.ne_of_lt hi) hia, hnode₁ i hi]

/-- The dual over the negated operands takes the place of a negated pair. -/
theorem run_negateOperands_pair {g : Graph} {parent : Option NodeId} {s s' : Spot}
    {a b : Tree Spot} (dual : NodeKind) (hlaid : Laid g parent (.node s [.node s' [a, b]]))
    (hnodup : (indices (.node s [.node s' [a, b]])).Nodup)
    (hangs : Hangs g (.node s [.node s' [a, b]]) parent) :
    ∃ g', (do
        Edit.detach s'.id
        let replacement ← Edit.add dual s'.token
        Edit.addNegated replacement (rootId a) s.token
        Edit.addNegated replacement (rootId b) s.token
        Edit.replace s.id replacement
        return replacement : Edit NodeId).run g = .ok g.nodes.size g' ∧
      Rewritten g g' parent (.node s [.node s' [a, b]])
        (negatedPair g dual s.token s'.token a b) := by
  have hinner := hlaid.child (u := .node s' [a, b]) (by simp)
  obtain ⟨⟨hss', hsa, hsb⟩, hnodup'⟩ : (s.id ≠ s'.id ∧ s.id ∉ indices a ∧ s.id ∉ indices b) ∧
      (indices (.node s' [a, b])).Nodup := by
    simpa using hnodup
  obtain ⟨hs', hna, hnb, hab⟩ : (s'.id ∉ indices a ∧ s'.id ∉ indices b) ∧ (indices a).Nodup ∧
      (indices b).Nodup ∧ List.Disjoint (indices a) (indices b) := by
    simpa [List.nodup_append'] using hnodup'
  obtain ⟨g₁, hdetach, hsize₁, hroot₁, ha₁, hb₁, hparent₁, hnode₁⟩ :=
    run_detach_pair hinner hnodup'
  obtain ⟨g₂, hpair, hsize₂, hroot₂, hlaid₂, hnodup₂, hnode₂⟩ :=
    run_addNegatedPair dual s.token s'.token ha₁ hb₁ hna hnb hab
  have hsame : negatedPair g₁ dual s.token s'.token a b =
      negatedPair g dual s.token s'.token a b := by
    rw [negatedPair, hsize₁]
    rfl
  rw [hsame] at hlaid₂ hnodup₂
  rw [hsize₁] at hpair hsize₂ hnode₂
  have hkept : ∀ i, i < g.nodes.size → i ∉ indices (.node s' [a, b]) → g₂.node i = g.node i := by
    intro i hi hmem
    have hoff : i ∉ indices a ∧ i ∉ indices b := by
      simp only [indices_node, indicesAll_cons, indicesAll_nil, List.append_nil, List.mem_cons,
        List.mem_append, not_or] at hmem
      exact hmem.2
    rw [hnode₂ i hi hoff.1 hoff.2, hnode₁ i hmem]
  have hkept' : ∀ i, i < g.nodes.size → i ∉ indices (.node s [.node s' [a, b]]) →
      g₂.node i = g.node i := by
    intro i hi hmem
    rw [indices_node, List.mem_cons, not_or, indicesAll_cons, indicesAll_nil, List.append_nil]
      at hmem
    exact hkept i hi hmem.2
  have hslt : s.id < g.nodes.size := hlaid.root_lt
  have hs₂ : g₂.node s.id = g.node s.id := hkept s.id hslt (by simp [hss', hsa, hsb])
  have hparent₂ : g₂.parent s'.id = none := by
    have hs'lt : s'.id < g.nodes.size := hinner.root_lt
    rw [Graph.parent, hnode₂ _ hs'lt hs'.1 hs'.2]
    exact hparent₁
  have hmembers : ∀ i ∈ indices (negatedPair g dual s.token s'.token a b),
      i ∈ indices (.node s [.node s' [a, b]]) ∧ i ≠ s.id ∨ g.nodes.size ≤ i := by
    intro i hi
    rcases mem_indices_negatedPair hi with hia | hib | hge
    · exact .inl ⟨by simp [hia], fun heq => hsa (heq ▸ hia)⟩
    · exact .inl ⟨by simp [hib], fun heq => hsb (heq ▸ hib)⟩
    · exact .inr hge
  obtain ⟨g', hrun, hrewritten⟩ :=
    run_replace_ready hlaid hangs (by omega) (hroot₂.trans hroot₁) hkept' hs₂ hlaid₂
      hnodup₂ hmembers (by
        -- The only child that the old root still lists is the detached one.
        intro i hi hparent
        have hchildren : g.children s.id = [s'.id] := hlaid.children_root
        rw [rootId_node, hchildren, List.mem_singleton] at hi
        rw [hi, hparent₂] at hparent
        cases hparent)
  refine ⟨g', ?_, hrewritten⟩
  -- What follows the pair in the program, run behind it.
  let next (replacement : NodeId) : Edit NodeId := do
    Edit.replace s.id replacement
    return replacement
  have hnext : (next g.nodes.size).run g₂ = .ok g.nodes.size g' := run_bind_of_ok hrun
  have hrest := (@run_bind_of_ok _ _ _ _ _ next _ hpair).trans hnext
  rw [run_bind_of_ok hdetach, ← hrest]
  simp only [bind_assoc, pure_bind, next]

/-- A negated conjunction or disjunction becomes the negated pair. -/
theorem negated_pair {s s' : Spot} {a b : Tree Spot} {dual : NodeKind} (g : Graph)
    (hs : s.kind = .not) (hs' : dual? s'.kind = some dual) :
    negated ((Tree.node s [.node s' [a, b]]).map Spot.content) =
      (negatedPair g dual s.token s'.token a b).map Spot.content := by
  obtain ⟨id, kind, token, skipped⟩ := s
  obtain ⟨id', kind', token', skipped'⟩ := s'
  dsimp only at hs hs'
  subst hs
  simp only [Tree.map_node, List.map_cons, List.map_nil, Spot.content, negated, hs']
  rfl

/-- The pass that pushes negations does what pushing does to the tree. -/
theorem negateOperands_rewrites : RewritesRoot Edit.negateOperands negated := by
  intro g parent t hlaid hnodup hangs
  rcases negatedPair?_cases hlaid with ⟨s, s', a, b, dual, rfl, hs, hs'⟩ | ⟨hnone, hnone'⟩
  · obtain ⟨g', hrun, hrewritten⟩ := run_negateOperands_pair dual hlaid hnodup hangs
    have htoken : g.token s.id = s.token := hlaid.token_root
    have htoken' : g.token s'.id = s'.token :=
      (hlaid.child (u := .node s' [a, b]) (by simp)).token_root
    refine ⟨g', _, ?_, hrewritten, (negated_pair g hs hs').symm⟩
    refine Eq.trans ?_ hrun
    have hpair := negatedPair?_eq_some hlaid hs hs'
    simp only [Edit.negateOperands, rootId_node, EStateM.run, bind, EStateM.bind, get, getThe,
      MonadStateOf.get, EStateM.get, hpair, htoken, htoken']
  · refine ⟨g, t, ?_, .refl hlaid hnodup hangs, hnone'.symm⟩
    simp only [Edit.negateOperands, EStateM.run, bind, EStateM.bind, get, getThe,
      MonadStateOf.get, EStateM.get, hnone]
    rfl

/-- **Pushing negations in the graph pushes them in the tree.** -/
theorem propagateNot_rewrites (fuel : Nat) :
    Rewrites (Edit.propagateNot fuel) (pushNots fuel) := by
  induction fuel with
  | zero =>
      intro g parent t hlaid hnodup hangs
      exact ⟨g, t, rfl, .refl hlaid hnodup hangs, rfl⟩
  | succ fuel ih => exact negateOperands_rewrites.descend ih

/-- **Moving negations to the right in the graph moves them in the tree.** -/
theorem swapNotToRight_rewrites (fuel : Nat) :
    Rewrites (Edit.swapNotToRight fuel) (swapNots fuel) := by
  induction fuel with
  | zero =>
      intro g parent t hlaid hnodup hangs
      exact ⟨g, t, rfl, .refl hlaid hnodup hangs, rfl⟩
  | succ fuel ih =>
      intro g parent t hlaid hnodup hangs
      obtain ⟨g', t', hrun, hrewritten, hcontent⟩ :=
        swap_rewrites.descend ih g parent t hlaid hnodup hangs
      refine ⟨g', t', ?_, hrewritten, hcontent⟩
      refine Eq.trans ?_ hrun
      simp only [Edit.swapNotToRight, EStateM.run, bind, EStateM.bind, get, getThe,
        MonadStateOf.get, EStateM.get]
      cases hleft : Edit.isNegatedLeft g (rootId t) with
      | true => rfl
      | false => rfl

/-- A pass whose steps rewrite trees, run from the root. -/
theorem Rewrites.run_fromRoot {pass : (fuel : Nat) → NodeId → Edit Unit}
    {f : (fuel : Nat) → Tree Content → Tree Content} (h : ∀ fuel, Rewrites (pass fuel) (f fuel))
    {g : Graph} {s : Tree Spot} (hs : Holds g s) :
    ∃ g' s', (Edit.fromRoot pass).run g = .ok () g' ∧ Holds g' s' ∧
      s'.map Spot.content = f (g.nodes.size + 1) (s.map Spot.content) := by
  obtain ⟨g', s', hrun, hrewritten, hcontent⟩ :=
    h (g.nodes.size + 1) g none s hs.laid hs.nodup (.root hs.root)
  refine ⟨g', s', ?_, ⟨hrewritten.root, hrewritten.laid, hrewritten.nodup⟩, hcontent⟩
  rw [← hrun]
  simp only [Edit.fromRoot, EStateM.run, bind, EStateM.bind, get, getThe, MonadStateOf.get,
    EStateM.get, hs.root]

/-- A pass that may be left out. -/
def runPass (enabled : Bool) (change : (fuel : Nat) → NodeId → Edit Unit) (g : Graph) :
    Noted QueryError Graph :=
  if enabled then
    ⟨(g.edit (Edit.fromRoot change)).1, (g.edit (Edit.fromRoot change)).2.toList⟩
  else pure g

/-- Optimization is one pass after the other, as long as none of them reports
anything. -/
theorem optimize_of_passes {options : OptimizationOptions} {g g₁ g₂ g₃ : Graph}
    (hpropagate : runPass options.propagateNot Edit.propagateNot g = pure g₁)
    (hswap : runPass options.swapNotToRight Edit.swapNotToRight g₁ = pure g₂)
    (hcollapse : runPass true Edit.collapseNot g₂ = pure g₃) : g.optimize options = pure g₃ := by
  have hpasses : g.optimize options = (do
      let g ← runPass options.propagateNot Edit.propagateNot g
      let g ← runPass options.swapNotToRight Edit.swapNotToRight g
      runPass true Edit.collapseNot g) := rfl
  have hbind : ∀ (g : Graph) (next : Graph → Noted QueryError Graph), pure g >>= next = next g :=
    fun _ _ => rfl
  rw [hpasses, hpropagate, hbind, hswap, hbind, hcollapse]

/-- A pass goes down far enough, since the tree of a graph is less high than the
graph has nodes. -/
theorem Holds.runPass (enabled : Bool) {change : (fuel : Nat) → NodeId → Edit Unit}
    {f : (fuel : Nat) → Tree Content → Tree Content} {whole : Tree Content → Tree Content}
    (hchange : ∀ fuel, Rewrites (change fuel) (f fuel))
    (hwhole : ∀ {t fuel}, t.height < fuel → f fuel t = whole t)
    {g : Graph} {s : Tree Spot} (hs : Holds g s) :
    ∃ g' s', runPass enabled change g = pure g' ∧ Holds g' s' ∧ s'.map Spot.content =
      if enabled then whole (s.map Spot.content) else s.map Spot.content := by
  cases enabled with
  | false => exact ⟨g, s, rfl, hs, rfl⟩
  | true =>
      obtain ⟨g', s', hrun, hs', hcontent⟩ := Rewrites.run_fromRoot hchange hs
      have hheight : (s.map Spot.content).height < g.nodes.size + 1 := by
        rw [Tree.height_map]
        exact Nat.lt_succ_of_lt (hs.laid.height_lt hs.nodup)
      refine ⟨g', s', ?_, hs', ?_⟩
      · rw [Graph.runPass, if_pos rfl, edit, hrun]
        rfl
      · rw [if_pos rfl, hcontent, hwhole hheight]

/-- **Optimizing a graph rewrites the tree that it holds**, and reports
nothing. -/
theorem Holds.optimize (options : OptimizationOptions) {g : Graph} {s : Tree Spot}
    (hs : Holds g s) :
    ∃ g' s', g.optimize options = pure g' ∧ Holds g' s' ∧
      s'.map Spot.content = optimized options (s.map Spot.content) := by
  obtain ⟨g₁, s₁, hrun₁, hs₁, hcontent₁⟩ :=
    hs.runPass options.propagateNot propagateNot_rewrites pushNots_eq
  obtain ⟨g₂, s₂, hrun₂, hs₂, hcontent₂⟩ :=
    hs₁.runPass options.swapNotToRight swapNotToRight_rewrites swapNots_eq
  obtain ⟨g₃, s₃, hrun₃, hs₃, hcontent₃⟩ := hs₂.runPass true collapseNot_rewrites collapseNots_eq
  refine ⟨g₃, s₃, optimize_of_passes hrun₁ hrun₂ hrun₃, hs₃, ?_⟩
  rw [hcontent₃, if_pos rfl, hcontent₂, hcontent₁]
  rfl

/-- There is nothing to rewrite in an empty graph. -/
theorem optimize_of_root_eq_none (options : OptimizationOptions) {g : Graph}
    (h : g.root = none) : g.optimize options = pure g := by
  have hpass : ∀ enabled change, runPass enabled change g = pure g := by
    intro enabled change
    have hrun : g.edit (Edit.fromRoot change) = (g, none) := by
      simp only [edit, Edit.fromRoot, EStateM.run, bind, EStateM.bind, get, getThe,
        MonadStateOf.get, EStateM.get, h]
      rfl
    cases enabled with
    | false => rfl
    | true => rw [Graph.runPass, if_pos rfl, hrun]; rfl
  exact optimize_of_passes (hpass _ _) (hpass _ _) (hpass _ _)

end FilterQuery.Graph
