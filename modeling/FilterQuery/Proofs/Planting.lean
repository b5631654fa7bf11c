import FilterQuery.Graph.Draft
import FilterQuery.Proofs.Layout

/-!
# Laying out trees

Two functions build graphs from trees.  `link` lays the links of nodes that are
there already, as the text of a query needs it; `addTree` adds the nodes of a
tree together with their links, each after those below it.  Both end with a tree
laid out, and leave all other nodes as they were.
-/

namespace FilterQuery.Graph

/-- A node has taken the roots of trees as further children, and nothing else
has changed off the indices of these trees. -/
structure Adopted (g g' : Graph) (p : NodeId) (ts : List (Tree Spot)) : Prop where
  below : ∀ t ∈ ts, Laid g' (some p) t
  owner : g'.node p = { g.node p with children := (g.node p).children ++ ts.map rootId }
  frame : ∀ i, i ≠ p → i ∉ indicesAll ts → g'.node i = g.node i
  size : g'.nodes.size = g.nodes.size
  root : g'.root = g.root

namespace Adopted

variable {g g₁ g₂ : Graph} {p : NodeId} {t : Tree Spot} {ts : List (Tree Spot)}

/-- Nothing has been adopted at first. -/
theorem refl (g : Graph) (p : NodeId) : Adopted g g p [] where
  below := by simp
  owner := by simp
  frame _ _ _ := rfl
  size := rfl
  root := rfl

/-- Trees are adopted one behind another. -/
theorem cons (first : Adopted g g₁ p [t]) (rest : Adopted g₁ g₂ p ts) (hp : p ∉ indices t)
    (hdisjoint : List.Disjoint (indices t) (indicesAll ts)) : Adopted g g₂ p (t :: ts) where
  below := by
    intro u hu
    rcases List.mem_cons.mp hu with rfl | hu
    · refine (first.below u (by simp)).frame (Nat.le_of_eq rest.size.symm) fun i hi => ?_
      refine rest.frame i ?_ fun hmem => hdisjoint hi hmem
      rintro rfl
      exact hp hi
    · exact rest.below u hu
  owner := by
    rw [rest.owner, first.owner]
    simp
  frame := by
    intro i hi hmem
    rw [indicesAll_cons, List.mem_append, not_or] at hmem
    rw [rest.frame i hi hmem.2, first.frame i hi (by simpa using hmem.1)]
  size := rest.size.trans first.size
  root := rest.root.trans first.root

/-- A node without children and parent that has taken trees is the root of a
tree over them. -/
theorem laid {s : Spot} (h : Adopted g g₁ s.id ts) (hbound : s.id < g.nodes.size)
    (hloose : g.node s.id = s.node [] none) : Laid g₁ none (.node s ts) := by
  refine .node (by rw [h.size]; exact hbound) ?_ h.below
  rw [h.owner, hloose]
  simp [Spot.node]

end Adopted

/-- A node takes the root of a tree as a child. -/
theorem Laid.adopted {g : Graph} {p : NodeId} {t : Tree Spot} (h : Laid g none t)
    (hnodup : (indices t).Nodup) (hbound : p < g.nodes.size) (hp : p ∉ indices t) :
    Adopted g (g.addChild p (rootId t)) p [t] := by
  have hne : p ≠ rootId t := by
    rintro rfl
    exact hp (rootId_mem_indices t)
  have hnode := node_addChild g hbound h.root_lt hne
  refine ⟨?_, ?_, ?_, by simp, by simp⟩
  · intro u hu
    obtain rfl := List.mem_singleton.mp hu
    refine h.reparent hnodup (by simp) ?_ fun i hi hroot => ?_
    · rw [hnode, if_neg (Ne.symm hne), if_pos rfl]
    · rw [hnode, if_neg ?_, if_neg hroot]
      rintro rfl
      exact hp hi
  · rw [hnode, if_pos rfl]
    rfl
  · intro i hi hmem
    rw [hnode, if_neg hi, if_neg ?_]
    rintro rfl
    exact hmem (by simp [rootId_mem_indices])

/-- A node takes the roots of several trees as children, one after the other. -/
theorem adopted_foldl {p : NodeId} (ts : List (Tree Spot)) :
    ∀ {g : Graph}, (∀ t ∈ ts, Laid g none t) → (indicesAll ts).Nodup → p < g.nodes.size →
      p ∉ indicesAll ts →
      Adopted g ((ts.map rootId).foldl (fun g id => g.addChild p id) g) p ts := by
  induction ts with
  | nil =>
      intro g _ _ _ _
      exact .refl g p
  | cons t ts ih =>
      intro g hlaid hnodup hbound hp
      rw [indicesAll_cons, List.nodup_append'] at hnodup
      rw [indicesAll_cons, List.mem_append, not_or] at hp
      obtain ⟨hnt, hnts, hdisjoint⟩ := hnodup
      have first := (hlaid t (by simp)).adopted hnt hbound hp.1
      refine first.cons (ih ?_ hnts (by simpa using hbound) hp.2) hp.1 hdisjoint
      intro u hu
      refine (hlaid u (by simp [hu])).frame (by simp) fun i hi => ?_
      have hmem : i ∈ indicesAll ts := mem_indicesAll.mpr ⟨u, hu, hi⟩
      refine first.frame i ?_ (by simpa using fun hit => hdisjoint hit hmem)
      rintro rfl
      exact hp.2 hmem

/-- The spots of a tree are nodes without any links. -/
def Loose (g : Graph) (t : Tree Spot) : Prop :=
  ∀ s ∈ t.preorder, s.id < g.nodes.size ∧ g.node s.id = s.node [] none

/-- Spots stay loose as long as nobody touches them. -/
theorem Loose.frame {g g' : Graph} {t : Tree Spot} (h : Loose g t)
    (hsize : g.nodes.size ≤ g'.nodes.size) (hsame : ∀ i ∈ indices t, g'.node i = g.node i) :
    Loose g' t := by
  intro s hs
  obtain ⟨hbound, hnode⟩ := h s hs
  exact ⟨Nat.lt_of_lt_of_le hbound hsize, (hsame s.id (List.mem_map_of_mem hs)).trans hnode⟩

/-- The spots below a loose tree are loose. -/
theorem Loose.below {g : Graph} {s : Spot} {ts : List (Tree Spot)} (h : Loose g (.node s ts)) :
    ∀ t ∈ ts, Loose g t :=
  fun _ ht u hu => h u (Tree.mem_preorder_of_child ht hu)

/-- The spots of an item. -/
abbrev spots (item : Item) : Tree Spot := item.map Place.spot

@[simp] theorem rootId_spots (item : Item) : rootId (spots item) = item.label.id := by
  simp [rootId, Place.spot]

/-- What linking an item leaves behind: the item is laid out, and all other
nodes are as before. -/
structure Linked (g g' : Graph) (item : Item) : Prop where
  laid : Laid g' none (spots item)
  frame : ∀ i, i ∉ indices (spots item) → g'.node i = g.node i
  size : g'.nodes.size = g.nodes.size
  root : g'.root = g.root

/-- If the items below can be linked one by one, then they can be linked to a
node. -/
theorem linkAll_adopted {p : NodeId} (items : List Item)
    (hlink : ∀ item ∈ items, ∀ g, Loose g (spots item) → (indices (spots item)).Nodup →
      Linked g (Draft.link g item) item) :
    ∀ {g : Graph}, (∀ item ∈ items, Loose g (spots item)) →
      (indicesAll (items.map spots)).Nodup → p < g.nodes.size →
      p ∉ indicesAll (items.map spots) →
      Adopted g (Draft.linkAll p g items) p (items.map spots) := by
  induction items with
  | nil =>
      intro g _ _ _ _
      exact .refl g p
  | cons item items ih =>
      intro g hloose hnodup hbound hp
      rw [List.map_cons, indicesAll_cons, List.nodup_append'] at hnodup
      rw [List.map_cons, indicesAll_cons, List.mem_append, not_or] at hp
      obtain ⟨hni, hnis, hdisjoint⟩ := hnodup
      have hlinked := hlink item (by simp) g (hloose item (by simp)) hni
      have hadopted := hlinked.laid.adopted hni (by rw [hlinked.size]; exact hbound) hp.1
      -- Linking the first item and taking it as a child are one adoption.
      have first : Adopted g ((Draft.link g item).addChild p item.label.id) p [spots item] := by
        rw [rootId_spots] at hadopted
        refine ⟨hadopted.below, ?_, ?_, hadopted.size.trans hlinked.size,
          hadopted.root.trans hlinked.root⟩
        · rw [hadopted.owner, hlinked.frame p hp.1]
        · intro i hi hmem
          rw [hadopted.frame i hi hmem, hlinked.frame i (by simpa using hmem)]
      rw [Draft.linkAll, List.map_cons]
      refine first.cons (ih (fun other hother => hlink other (by simp [hother])) ?_ hnis ?_ hp.2)
        hp.1 hdisjoint
      · intro other hother
        refine (hloose other (by simp [hother])).frame (Nat.le_of_eq first.size.symm) fun i hi => ?_
        have hmem : i ∈ indicesAll (items.map spots) :=
          mem_indicesAll.mpr ⟨_, List.mem_map_of_mem hother, hi⟩
        refine first.frame i ?_ (by simpa using fun hit => hdisjoint hit hmem)
        rintro rfl
        exact hp.2 hmem
      · rw [first.size]
        exact hbound

/-- **Linking lays out the item.** -/
theorem link_linked (item : Item) : ∀ {g : Graph}, Loose g (spots item) →
    (indices (spots item)).Nodup → Linked g (Draft.link g item) item := by
  induction item using Tree.induction with
  | node p items ih =>
      intro g hloose hnodup
      have hspots : spots (.node p items) = .node p.spot (items.map spots) := Tree.map_node ..
      rw [hspots, indices_node, List.nodup_cons] at hnodup
      rw [hspots] at hloose
      obtain ⟨hbound, hnode⟩ := hloose p.spot (by simp)
      have hadopted := linkAll_adopted (p := p.id) items (fun item hitem g => ih item hitem)
        (fun item hitem => hloose.below _ (List.mem_map_of_mem hitem)) hnodup.2 hbound hnodup.1
      rw [Draft.link]
      refine ⟨?_, ?_, hadopted.size, hadopted.root⟩
      · rw [hspots]
        exact Adopted.laid (s := p.spot) hadopted hbound hnode
      · intro i hi
        rw [hspots, indices_node, List.mem_cons, not_or] at hi
        exact hadopted.frame i hi.1 hi.2

/-- Trees have been added at fresh indices: each is laid out, and the nodes that
were there before are as they were. -/
structure Planted (g g' : Graph) (ts : List (Tree Spot)) : Prop where
  laid : ∀ t ∈ ts, Laid g' none t
  nodup : (indicesAll ts).Nodup
  fresh : ∀ i ∈ indicesAll ts, g.nodes.size ≤ i
  size : g'.nodes.size = g.nodes.size + (indicesAll ts).length
  frame : ∀ i, i < g.nodes.size → g'.node i = g.node i
  root : g'.root = g.root

namespace Planted

variable {g g₁ g₂ : Graph} {t : Tree Spot} {ts : List (Tree Spot)}

/-- Nothing has been planted at first. -/
theorem refl (g : Graph) : Planted g g [] where
  laid := by simp
  nodup := by simp
  fresh := by simp
  size := by simp
  frame _ _ := rfl
  root := rfl

/-- What has been planted is in the graph. -/
theorem index_lt (h : Planted g g₁ ts) : ∀ i ∈ indicesAll ts, i < g₁.nodes.size := by
  intro i hi
  obtain ⟨t, ht, hit⟩ := mem_indicesAll.mp hi
  exact (h.laid t ht).index_lt i hit

/-- Trees are planted one behind another. -/
theorem cons (first : Planted g g₁ [t]) (rest : Planted g₁ g₂ ts) : Planted g g₂ (t :: ts) := by
  have hlt : ∀ i ∈ indices t, i < g₁.nodes.size := (first.laid t (by simp)).index_lt
  have hsize : g₁.nodes.size = g.nodes.size + (indices t).length := by simpa using first.size
  have hle : g.nodes.size ≤ g₁.nodes.size := by omega
  refine ⟨?_, ?_, ?_, ?_, ?_, rest.root.trans first.root⟩
  · intro u hu
    rcases List.mem_cons.mp hu with rfl | hu
    · exact (first.laid u (by simp)).frame (by rw [rest.size]; omega) fun i hi =>
        rest.frame i (hlt i hi)
    · exact rest.laid u hu
  · rw [indicesAll_cons, List.nodup_append']
    refine ⟨by simpa using first.nodup, rest.nodup, fun i hi hmem => ?_⟩
    exact absurd (hlt i hi) (Nat.not_lt.mpr (rest.fresh i hmem))
  · intro i hi
    rcases List.mem_append.mp (by simpa using hi) with hi | hi
    · exact first.fresh i (by simpa using hi)
    · exact Nat.le_trans hle (rest.fresh i hi)
  · rw [rest.size, hsize, indicesAll_cons, List.length_append]
    omega
  · intro i hi
    rw [rest.frame i (Nat.lt_of_lt_of_le hi hle), first.frame i hi]

end Planted

/-- The tree of spots is an unskipped copy of the tree. -/
structure Copies (u : Tree Spot) (t : Tree Content) : Prop where
  content : u.map Spot.content = t
  unskipped : ∀ s ∈ u.preorder, s.skipped = false

/-- If trees can be added one by one, then all of them can. -/
theorem addTrees_planted (ts : List (Tree Content))
    (hadd : ∀ t ∈ ts, ∀ g : Graph, ∃ u, Copies u t ∧ rootId u = (g.addTree t).2 ∧
      Planted g (g.addTree t).1 [u]) :
    ∀ g : Graph, ∃ us, List.Forall₂ Copies us ts ∧ us.map rootId = (g.addTrees ts).2 ∧
      Planted g (g.addTrees ts).1 us := by
  induction ts with
  | nil =>
      intro g
      exact ⟨[], .nil, rfl, .refl g⟩
  | cons t ts ih =>
      intro g
      obtain ⟨u, hcopy, hid, hplanted⟩ := hadd t (by simp) g
      obtain ⟨us, hcopies, hids, hrest⟩ :=
        ih (fun t ht => hadd t (by simp [ht])) (g.addTree t).1
      refine ⟨u :: us, .cons hcopy hcopies, ?_, ?_⟩
      · rw [List.map_cons, hid, hids, addTrees]
      · rw [addTrees]
        exact hplanted.cons hrest

/-- A node over copies is a copy of the node over what is copied. -/
theorem Copies.node {c : Content} {id : NodeId} {us : List (Tree Spot)}
    {ts : List (Tree Content)} (h : List.Forall₂ Copies us ts) :
    Copies (.node ⟨id, c.kind, c.token, false⟩ us) (.node c ts) := by
  have hskipped : ∀ u ∈ us, ∀ s ∈ u.preorder, s.skipped = false := by
    induction h with
    | nil => simp
    | cons h hs ih =>
        intro u hu
        rcases List.mem_cons.mp hu with rfl | hu
        · exact h.unskipped
        · exact ih u hu
  have hcontent : us.map (Tree.map Spot.content) = ts := by
    induction h with
    | nil => rfl
    | cons h hs ih => rw [List.map_cons, h.content, ih fun u hu => hskipped u (by simp [hu])]
  constructor
  · rw [Tree.map_node, hcontent]
    rfl
  · intro s hs
    rw [Tree.preorder_node] at hs
    rcases List.mem_cons.mp hs with rfl | hs
    · rfl
    · obtain ⟨u, hu, hsu⟩ := List.mem_flatMap.mp hs
      exact hskipped u hu s hsu

/-- **Adding a tree lays it out at fresh indices.** -/
theorem addTree_planted (t : Tree Content) : ∀ g : Graph,
    ∃ u, Copies u t ∧ rootId u = (g.addTree t).2 ∧ Planted g (g.addTree t).1 [u] := by
  induction t with
  | node c ts ih =>
      intro g
      obtain ⟨us, hcopies, hids, hbelow⟩ := addTrees_planted ts ih g
      let added := (g.addTrees ts).1
      let root : Spot := ⟨added.nodes.size, c.kind, c.token, false⟩
      have hroot : root.id ∉ indicesAll us := fun hmem =>
        absurd (hbelow.index_lt _ hmem) (Nat.lt_irrefl _)
      have hpushed : ∀ u ∈ us, Laid (added.add c.kind c.token).1 none u := fun u hu => by
        refine (hbelow.laid u hu).frame (by simp [added]) fun i hi => ?_
        rw [node_add, if_neg (Nat.ne_of_lt ((hbelow.laid u hu).index_lt i hi))]
      have hadopted := adopted_foldl (p := root.id) us hpushed hbelow.nodup (by simp [root])
        hroot
      have hadd : g.addTree (.node c ts) =
          ((us.map rootId).foldl (fun g id => g.addChild root.id id)
            (added.add c.kind c.token).1, root.id) := by
        rw [addTree, hids]
        rfl
      rw [hadd]
      have hlaid := Adopted.laid (s := root) hadopted (by simp [root]) (by
        rw [node_add, if_pos rfl]
        rfl)
      have hge : g.nodes.size ≤ added.nodes.size := by
        rw [hbelow.size]
        exact Nat.le_add_right _ _
      refine ⟨.node root us, .node hcopies, rfl, ?_, ?_, ?_, ?_, ?_, ?_⟩
      · intro u hu
        obtain rfl := List.mem_singleton.mp hu
        exact hlaid
      · simpa using ⟨hroot, hbelow.nodup⟩
      · intro i hi
        rcases List.mem_cons.mp (by simpa using hi) with rfl | hi
        · exact hge
        · exact hbelow.fresh i hi
      · rw [hadopted.size, size_add, hbelow.size]
        simp only [indicesAll_cons, indices_node, indicesAll_nil, List.append_nil, List.length_cons]
        omega
      · intro i hi
        have hlt : i < added.nodes.size := Nat.lt_of_lt_of_le hi hge
        rw [hadopted.frame i (Nat.ne_of_lt hlt), node_add, if_neg (Nat.ne_of_lt hlt),
          hbelow.frame i hi]
        intro hmem
        exact absurd (hbelow.fresh i hmem) (Nat.not_le.mpr hi)
      · exact hadopted.root.trans (by simpa [added] using hbelow.root)

/-- The graph of a tree holds a copy of it, and has no node besides. -/
theorem ofTree_holds (t : Tree Content) :
    ∃ u, Copies u t ∧ Holds (ofTree t) u ∧ (ofTree t).nodes.size = (indices u).length := by
  obtain ⟨u, hcopy, hid, hplanted⟩ := addTree_planted t {}
  have hlaid := hplanted.laid u (by simp)
  have hnodup : (indices u).Nodup := by simpa using hplanted.nodup
  have hof : ofTree t = (({} : Graph).addTree t).1.setRoot (some (rootId u)) := by
    rw [hid]
    rfl
  refine ⟨u, hcopy, hof ▸ hlaid.holds_setRoot hnodup, ?_⟩
  rw [hof, size_setRoot, hplanted.size]
  simp

end FilterQuery.Graph
