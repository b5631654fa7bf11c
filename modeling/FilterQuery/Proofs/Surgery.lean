import FilterQuery.Graph.Edit
import FilterQuery.Proofs.Planting

/-!
# Edits of laid out trees

An edit works on the links of a graph, one node at a time; what it does is said
in terms of the trees that the graph lays out.  `Hangs` says where a tree hangs,
in the child list of its parent or at the root, and `Rewritten` that an edit has
put another tree in its place: the other tree is laid out there, made of nodes
of the first one and of new ones, and no node off the first tree has changed but
the child list that names its root.
-/

namespace FilterQuery.Graph

section Runs

variable {β γ : Type} {g g' : Graph}

/-- An edit goes on from where the one before it has ended. -/
theorem run_bind_of_ok {change : Edit β} {next : β → Edit γ} {b : β}
    (h : change.run g = .ok b g') : (change >>= next).run g = (next b).run g' := by
  have happlied : change g = .ok b g' := h
  simp only [EStateM.run, bind, EStateM.bind, happlied]

theorem run_get_bind (next : Graph → Edit γ) : (get >>= next : Edit γ).run g = (next g).run g :=
  rfl

end Runs

/-- A child loses its parent. -/
def orphan (id : NodeId) (g : Graph) (child : NodeId) : Graph :=
  if g.parent child = some id then g.setParent child none else g

/-- An orphan loses its parent if that is the node, and nothing else changes. -/
theorem node_orphan (id : NodeId) (g : Graph) (child i : NodeId) :
    (orphan id g child).node i =
      if i = child ∧ g.parent i = some id then { g.node i with parent := none } else g.node i := by
  by_cases hparent : g.parent child = some id
  · rw [orphan, if_pos hparent, setParent, node_update]
    by_cases hi : i = child
    · subst hi
      simp [hparent, lt_of_parent g hparent]
    · simp [hi]
  · rw [orphan, if_neg hparent]
    by_cases hi : i = child
    · simp [hi, hparent]
    · simp [hi]

@[simp] theorem size_orphan (id : NodeId) (g : Graph) (child : NodeId) :
    (orphan id g child).nodes.size = g.nodes.size := by
  unfold orphan
  split <;> simp

@[simp] theorem root_orphan (id : NodeId) (g : Graph) (child : NodeId) :
    (orphan id g child).root = g.root := by
  unfold orphan
  split <;> rfl

/-- Orphaned one after the other, all children of the node lose it as their
parent. -/
theorem foldl_orphan (id : NodeId) (ids : List NodeId) (g : Graph) :
    (ids.foldl (orphan id) g).nodes.size = g.nodes.size ∧
      (ids.foldl (orphan id) g).root = g.root ∧
      ∀ i, (ids.foldl (orphan id) g).node i =
        if i ∈ ids ∧ g.parent i = some id then { g.node i with parent := none } else g.node i := by
  induction ids generalizing g with
  | nil => simp
  | cons child ids ih =>
      obtain ⟨hsize, hroot, hnode⟩ := ih (orphan id g child)
      refine ⟨by simpa using hsize, by simpa using hroot, fun i => ?_⟩
      rw [List.foldl_cons, hnode, parent, node_orphan]
      by_cases hi : i = child ∧ g.parent i = some id
      · have hmem : i ∈ child :: ids ∧ g.parent i = some id := ⟨by simp [hi.1], hi.2⟩
        rw [if_pos hi, if_pos hmem, if_neg fun h => by cases h.2]
      · rw [if_neg hi]
        by_cases hmem : i ∈ ids
        · simp [hmem, parent]
        · have hne : ¬ (i ∈ child :: ids ∧ g.parent i = some id) := by
            simp only [List.mem_cons, hmem, or_false]
            exact hi
          rw [if_neg hne, if_neg fun h => hmem h.1]

/-- Detaching a node takes its links from it, and the parent from each child
that it owns. -/
theorem run_detach {g : Graph} {id : NodeId} (hbound : id < g.nodes.size) :
    ∃ g', (Edit.detach id).run g = .ok () g' ∧ g'.nodes.size = g.nodes.size ∧ g'.root = g.root ∧
      g'.node id = { g.node id with children := [], parent := none } ∧
      ∀ i, i ≠ id → g'.node i =
        if i ∈ g.children id ∧ g.parent i = some id then { g.node i with parent := none }
        else g.node i := by
  obtain ⟨hsize, hroot, hnode⟩ := foldl_orphan id (g.children id) (g.setChildren id [])
  let orphaned := (g.children id).foldl (orphan id) (g.setChildren id [])
  have hbound' : id < orphaned.nodes.size := by
    rw [hsize]
    simpa using hbound
  refine ⟨orphaned.setParent id none, rfl, ?_, ?_, ?_, fun i hi => ?_⟩
  · simpa using hsize
  · simpa using hroot
  · rw [node_setParent _ hbound', if_pos rfl, hnode, parent, node_setChildren _ hbound, if_pos rfl]
    split <;> rfl
  · rw [node_setParent _ hbound', if_neg hi, hnode, parent, node_setChildren _ hbound, if_neg hi]
    rfl

/-- The tree hangs below a node off it, behind children that are no nodes of
it. -/
structure Below (g : Graph) (p : NodeId) (t : Tree Spot) (before after : List NodeId) : Prop where
  bound : p < g.nodes.size
  off : p ∉ indices t
  children : g.children p = before ++ rootId t :: after
  apart : ∀ i ∈ before, i < g.nodes.size ∧ i ∉ indices t

/-- The tree hangs below its parent, or is at the root. -/
inductive Hangs (g : Graph) (t : Tree Spot) : Option NodeId → Prop where
  | root (h : g.root = some (rootId t)) : Hangs g t none
  | child {p : NodeId} {before after : List NodeId} (h : Below g p t before after) :
      Hangs g t (some p)

/-- A tree does not hang below a node of its own. -/
theorem Hangs.ne_parent {g : Graph} {t : Tree Spot} {parent : Option NodeId}
    (h : Hangs g t parent) {i : NodeId} (hi : i ∈ indices t) : parent ≠ some i := by
  rintro rfl
  cases h with
  | child h => exact h.off hi

/-- A tree that hangs below a node is not one of the children in front of it. -/
theorem Below.root_not_mem {g : Graph} {p : NodeId} {t : Tree Spot} {before after : List NodeId}
    (h : Below g p t before after) : rootId t ∉ before :=
  fun hmem => (h.apart _ hmem).2 (rootId_mem_indices t)

/-- A tree still hangs below a node if nothing outside of it has changed. -/
theorem Below.frame {g g' : Graph} {p : NodeId} {t : Tree Spot} {before after : List NodeId}
    (h : Below g p t before after) (hsize : g.nodes.size ≤ g'.nodes.size)
    (hsame : ∀ i, i < g.nodes.size → i ∉ indices t → g'.node i = g.node i) :
    Below g' p t before after where
  bound := Nat.lt_of_lt_of_le h.bound hsize
  off := h.off
  children := by
    rw [Graph.children, hsame p h.bound h.off]
    exact h.children
  apart i hi := ⟨Nat.lt_of_lt_of_le (h.apart i hi).1 hsize, (h.apart i hi).2⟩

/-- A tree still hangs where it did if nothing outside of it has changed. -/
theorem Hangs.frame {g g' : Graph} {t : Tree Spot} {parent : Option NodeId}
    (h : Hangs g t parent) (hsize : g.nodes.size ≤ g'.nodes.size) (hroot : g'.root = g.root)
    (hsame : ∀ i, i < g.nodes.size → i ∉ indices t → g'.node i = g.node i) :
    Hangs g' t parent := by
  cases h with
  | root h => exact .root (hroot.trans h)
  | child h => exact .child (h.frame hsize hsame)

/-- A tree has been put in the place of another. -/
structure Rewritten (g g' : Graph) (parent : Option NodeId) (t t' : Tree Spot) : Prop where
  laid : Laid g' parent t'
  nodup : (indices t').Nodup
  fresh : ∀ i ∈ indices t', i ∈ indices t ∨ g.nodes.size ≤ i
  grows : g.nodes.size ≤ g'.nodes.size
  frame : ∀ i, i < g.nodes.size → i ∉ indices t → parent ≠ some i → g'.node i = g.node i
  owner : ∀ p before after, parent = some p → Below g p t before after →
    g'.node p = { g.node p with children := before ++ rootId t' :: after }
  root : g'.root = if parent = none then some (rootId t') else g.root

namespace Rewritten

variable {g g₁ g₂ : Graph} {parent : Option NodeId} {t t₁ t₂ : Tree Spot}

/-- A tree may stand in its own place. -/
theorem refl (hlaid : Laid g parent t) (hnodup : (indices t).Nodup) (hangs : Hangs g t parent) :
    Rewritten g g parent t t where
  laid := hlaid
  nodup := hnodup
  fresh _ hi := .inl hi
  grows := Nat.le_refl _
  frame _ _ _ _ := rfl
  owner p before after _ hbelow := by
    rw [← hbelow.children]
    rfl
  root := by
    cases hangs with
    | root h => simp [h]
    | child h => simp

/-- A node off the first tree is off the other one. -/
theorem not_mem (h : Rewritten g g₁ parent t t₁) {i : NodeId} (hbound : i < g.nodes.size)
    (hi : i ∉ indices t) : i ∉ indices t₁ := by
  intro hmem
  rcases h.fresh i hmem with hmem | hge
  · exact hi hmem
  · exact absurd hbound (Nat.not_lt.mpr hge)

/-- A tree in the place of another hangs below the same node. -/
theorem below (h : Rewritten g g₁ (some p) t t₁) {before after : List NodeId}
    (hbelow : Below g p t before after) : Below g₁ p t₁ before after where
  bound := Nat.lt_of_lt_of_le hbelow.bound h.grows
  off := h.not_mem hbelow.bound hbelow.off
  children := by
    rw [children, h.owner p before after rfl hbelow]
  apart i hi :=
    have hapart := hbelow.apart i hi
    ⟨Nat.lt_of_lt_of_le hapart.1 h.grows, h.not_mem hapart.1 hapart.2⟩

/-- A tree in the place of another hangs where that did. -/
theorem hangs (h : Rewritten g g₁ parent t t₁) (hangs : Hangs g t parent) : Hangs g₁ t₁ parent := by
  cases hangs with
  | root _ => exact .root h.root
  | child hbelow => exact .child (h.below hbelow)

/-- A tree may be put in the place of another that has been put there before. -/
theorem trans (h₁ : Rewritten g g₁ parent t t₁) (h₂ : Rewritten g₁ g₂ parent t₁ t₂) :
    Rewritten g g₂ parent t t₂ where
  laid := h₂.laid
  nodup := h₂.nodup
  fresh := by
    intro i hi
    rcases h₂.fresh i hi with hi | hge
    · exact h₁.fresh i hi
    · exact .inr (Nat.le_trans h₁.grows hge)
  grows := Nat.le_trans h₁.grows h₂.grows
  frame := by
    intro i hbound hi hparent
    rw [h₂.frame i (Nat.lt_of_lt_of_le hbound h₁.grows) (h₁.not_mem hbound hi) hparent,
      h₁.frame i hbound hi hparent]
  owner := by
    rintro p before after rfl hbelow
    rw [h₂.owner p before after rfl (h₁.below hbelow), h₁.owner p before after rfl hbelow]
  root := by
    rw [h₂.root, h₁.root]
    split <;> rfl

end Rewritten

section Children

variable {g g' : Graph} {parent : Option NodeId} {s : Spot} {us vs : List (Tree Spot)}
  {u u' : Tree Spot}

/-- Without an index twice, a child has none of those of the node and of the
other children. -/
theorem nodup_node_append (h : (indices (.node s (us ++ u :: vs))).Nodup) :
    s.id ∉ indicesAll us ∧ s.id ∉ indices u ∧ s.id ∉ indicesAll vs ∧ (indicesAll us).Nodup ∧
      (indices u).Nodup ∧ (indicesAll vs).Nodup ∧ List.Disjoint (indicesAll us) (indices u) ∧
      List.Disjoint (indicesAll us) (indicesAll vs) ∧
      List.Disjoint (indices u) (indicesAll vs) := by
  simp only [indices_node, indicesAll_append, indicesAll_cons, List.nodup_cons, List.mem_append,
    not_or, List.nodup_append', List.disjoint_append_right] at h
  obtain ⟨⟨hus, hu, hvs⟩, hnus, ⟨hnu, hnvs, huvs⟩, husu, husvs⟩ := h
  exact ⟨hus, hu, hvs, hnus, hnu, hnvs, husu, husvs, huvs⟩

/-- A child of a laid node hangs below it, between the other children. -/
theorem Laid.below_node (h : Laid g parent (.node s (us ++ u :: vs)))
    (hnodup : (indices (.node s (us ++ u :: vs))).Nodup) :
    Below g s.id u (us.map rootId) (vs.map rootId) := by
  obtain ⟨hbound, hstored, hbelow⟩ := Laid.node_iff.mp h
  obtain ⟨-, hu, -, -, -, -, husu, -, -⟩ := nodup_node_append hnodup
  refine ⟨hbound, hu, ?_, fun i hi => ?_⟩
  · rw [children, hstored]
    simp [Spot.node]
  · obtain ⟨w, hw, rfl⟩ := List.mem_map.mp hi
    have hmem : rootId w ∈ indicesAll us := mem_indicesAll.mpr ⟨w, hw, rootId_mem_indices w⟩
    exact ⟨(hbelow w (by simp [hw])).root_lt, fun hiu => husu hmem hiu⟩

/-- The trees beside a child hang below the same node, off the child. -/
theorem Laid.beside (hlaid : Laid g parent (.node s (us ++ u :: vs)))
    (hnodup : (indices (.node s (us ++ u :: vs))).Nodup) :
    ∀ w ∈ us ++ vs, Laid g (some s.id) w ∧
      ∀ i ∈ indices w, i < g.nodes.size ∧ i ∉ indices u ∧ i ≠ s.id := by
  obtain ⟨-, -, hchildren⟩ := Laid.node_iff.mp hlaid
  obtain ⟨hsus, -, hsvs, -, -, -, husu, -, huvs⟩ := nodup_node_append hnodup
  intro w hw
  rcases List.mem_append.mp hw with hw | hw
  · have hw' := hchildren w (by simp [hw])
    refine ⟨hw', fun i hi => ?_⟩
    have hmem : i ∈ indicesAll us := mem_indicesAll.mpr ⟨w, hw, hi⟩
    refine ⟨hw'.index_lt i hi, fun hiu => husu hmem hiu, ?_⟩
    rintro rfl
    exact hsus hmem
  · have hw' := hchildren w (by simp [hw])
    refine ⟨hw', fun i hi => ?_⟩
    have hmem : i ∈ indicesAll vs := mem_indicesAll.mpr ⟨w, hw, hi⟩
    refine ⟨hw'.index_lt i hi, fun hiu => huvs hiu hmem, ?_⟩
    rintro rfl
    exact hsvs hmem

/-- **Rewriting a child rewrites the tree.** -/
theorem Rewritten.child (hlaid : Laid g parent (.node s (us ++ u :: vs)))
    (hnodup : (indices (.node s (us ++ u :: vs))).Nodup)
    (hangs : Hangs g (.node s (us ++ u :: vs)) parent) (h : Rewritten g g' (some s.id) u u') :
    Rewritten g g' parent (.node s (us ++ u :: vs)) (.node s (us ++ u' :: vs)) := by
  have hbelow := hlaid.below_node hnodup
  have hbeside := hlaid.beside hnodup
  obtain ⟨hbound, hstored, -⟩ := Laid.node_iff.mp hlaid
  obtain ⟨hsus, hsu, hsvs, hnus, -, hnvs, -, husvs, -⟩ := nodup_node_append hnodup
  have hlaid' : ∀ w ∈ us ++ vs, Laid g' (some s.id) w := fun w hw =>
    (hbeside w hw).1.frame h.grows fun i hi => by
      obtain ⟨hlt, hiu, his⟩ := (hbeside w hw).2 i hi
      exact h.frame i hlt hiu (by simpa using Ne.symm his)
  -- What hangs beside the child is off the new one, which may have taken new nodes only.
  have hoff : ∀ w ∈ us ++ vs, ∀ i ∈ indices w, i ∉ indices u' := fun w hw i hi =>
    have hi' := (hbeside w hw).2 i hi
    h.not_mem hi'.1 hi'.2.1
  refine ⟨?_, ?_, ?_, h.grows, ?_, ?_, ?_⟩
  · refine .node (Nat.lt_of_lt_of_le hbound h.grows) ?_ fun w hw => ?_
    · rw [h.owner s.id _ _ rfl hbelow, hstored]
      simp [Spot.node]
    · rcases List.mem_append.mp hw with hw | hw
      · exact hlaid' w (by simp [hw])
      · rcases List.mem_cons.mp hw with rfl | hw
        · exact h.laid
        · exact hlaid' w (by simp [hw])
  · simp only [indices_node, indicesAll_append, indicesAll_cons, List.nodup_cons, List.mem_append,
      not_or, List.nodup_append', List.disjoint_append_right]
    refine ⟨⟨hsus, h.not_mem hbound hsu, hsvs⟩, hnus, ⟨h.nodup, hnvs, ?_⟩, ?_, husvs⟩
    · intro i hi hiv
      obtain ⟨w, hw, hiw⟩ := mem_indicesAll.mp hiv
      exact hoff w (by simp [hw]) i hiw hi
    · intro i hius hi
      obtain ⟨w, hw, hiw⟩ := mem_indicesAll.mp hius
      exact hoff w (by simp [hw]) i hiw hi
  · intro i hi
    simp only [indices_node, indicesAll_append, indicesAll_cons, List.mem_cons, List.mem_append]
      at hi ⊢
    rcases hi with rfl | hi | hi | hi
    · exact .inl (.inl rfl)
    · exact .inl (.inr (.inl hi))
    · rcases h.fresh i hi with hi | hge
      · exact .inl (.inr (.inr (.inl hi)))
      · exact .inr hge
    · exact .inl (.inr (.inr (.inr hi)))
  · intro i hi hmem hparent
    simp only [indices_node, indicesAll_append, indicesAll_cons, List.mem_cons, List.mem_append,
      not_or] at hmem
    exact h.frame i hi hmem.2.2.1 (by simpa using Ne.symm hmem.1)
  · rintro p before after rfl hp
    have hoffp := hp.off
    simp only [indices_node, indicesAll_append, indicesAll_cons, List.mem_cons, List.mem_append,
      not_or] at hoffp
    rw [h.frame p hp.bound hoffp.2.2.1 (by simpa using Ne.symm hoffp.1)]
    have hlist := hp.children
    rw [rootId_node] at hlist ⊢
    rw [← hlist]
    rfl
  · rw [h.root]
    cases hangs with
    | root hroot => simpa using hroot
    | child _ => simp

end Children

/-- Wherever a tree hangs, the change at its root puts there what the function
makes of it. -/
def Rewrites (change : NodeId → Edit Unit) (f : Tree Content → Tree Content) : Prop :=
  ∀ (g : Graph) (parent : Option NodeId) (t : Tree Spot), Laid g parent t → (indices t).Nodup →
    Hangs g t parent → ∃ g' t', (change (rootId t)).run g = .ok () g' ∧
      Rewritten g g' parent t t' ∧ t'.map Spot.content = f (t.map Spot.content)

/-- A change that is made at one child after the other.  `us` are the children
behind. -/
theorem Rewrites.forM {change : NodeId → Edit Unit} {f : Tree Content → Tree Content}
    (h : Rewrites change f) {parent : Option NodeId} {s : Spot} (vs : List (Tree Spot)) :
    ∀ (g : Graph) (us : List (Tree Spot)), Laid g parent (.node s (us ++ vs)) →
      (indices (.node s (us ++ vs))).Nodup → Hangs g (.node s (us ++ vs)) parent →
      ∃ g' vs', ((vs.map rootId).forM change).run g = .ok () g' ∧
        Rewritten g g' parent (.node s (us ++ vs)) (.node s (us ++ vs')) ∧
        vs'.map (Tree.map Spot.content) = (vs.map (Tree.map Spot.content)).map f := by
  induction vs with
  | nil =>
      intro g us hlaid hnodup hangs
      exact ⟨g, [], rfl, .refl hlaid hnodup hangs, rfl⟩
  | cons v vs ih =>
      intro g us hlaid hnodup hangs
      obtain ⟨-, -, hchildren⟩ := Laid.node_iff.mp hlaid
      obtain ⟨-, -, -, -, hv, -⟩ := nodup_node_append hnodup
      obtain ⟨g₁, v', hrun, hrewritten, hcontent⟩ :=
        h g (some s.id) v (hchildren v (by simp)) hv (.child (hlaid.below_node hnodup))
      have hfirst := hrewritten.child hlaid hnodup hangs
      rw [List.append_cons us v' vs] at hfirst
      obtain ⟨g₂, vs', hrun', hrest, hcontents⟩ :=
        ih g₁ (us ++ [v']) hfirst.laid hfirst.nodup (hfirst.hangs hangs)
      refine ⟨g₂, v' :: vs', ?_, ?_, ?_⟩
      · exact (run_bind_of_ok hrun).trans hrun'
      · have hboth := hfirst.trans hrest
        rwa [← List.append_cons] at hboth
      · simp only [List.map_cons, hcontent, hcontents]

/-- The place of an entry is the number of those in front of it. -/
theorem idxOf?_append_cons {before after : List NodeId} {old : NodeId} (h : old ∉ before) :
    (before ++ old :: after).idxOf? old = some before.length := by
  induction before with
  | nil => simp [List.idxOf?_cons]
  | cons i before ih =>
      rw [List.mem_cons, not_or] at h
      rw [List.cons_append, List.idxOf?_cons, if_neg (by simpa using Ne.symm h.1), ih h.2]
      rfl

/-- A tree hangs in one place only among the children of a node. -/
theorem Below.place_unique {g : Graph} {p : NodeId} {t : Tree Spot}
    {before after before' after' : List NodeId} (h : Below g p t before after)
    (h' : Below g p t before' after') : before = before' ∧ after = after' := by
  have hsplit : before ++ rootId t :: after = before' ++ rootId t :: after' :=
    h.children.symm.trans h'.children
  have hlength : before.length = before'.length := by
    -- Both splits of the list are at the first occurrence of the root.
    have hindex := congrArg (List.idxOf? (rootId t)) hsplit
    rw [idxOf?_append_cons h.root_not_mem, idxOf?_append_cons h'.root_not_mem] at hindex
    exact Option.some.inj hindex
  obtain ⟨hbefore, hafter⟩ := List.append_inj hsplit hlength
  exact ⟨hbefore, (List.cons.inj hafter).2⟩

/-- The slot of a child is the number of children in front of it. -/
theorem run_slot {g : Graph} {p child : NodeId} {before after : List NodeId}
    (hchildren : g.children p = before ++ child :: after) (h : child ∉ before) :
    (Edit.slot p child).run g = .ok before.length g := by
  have hindex : (g.children p).idxOf? child = some before.length := by
    rw [hchildren, idxOf?_append_cons h]
  rw [Edit.slot, run_get_bind, hindex]
  rfl

/-- The first part of a replacement: the new node takes the place of the old
one. -/
theorem run_replace_exchange {g : Graph} {parent : Option NodeId} {t : Tree Spot} {new : NodeId}
    (hne : rootId t ≠ new) (hold : g.parent (rootId t) = parent) (hangs : Hangs g t parent)
    (hbound : new < g.nodes.size) (hnew : g.parent new = none) (hoff : parent ≠ some new) :
    ∃ linked, (Edit.replace (rootId t) new).run g = (Edit.detach (rootId t)).run linked ∧
      linked.nodes.size = g.nodes.size ∧
      linked.root = (if parent = none then some new else g.root) ∧
      linked.node new = { g.node new with parent } ∧
      (∀ p before after, parent = some p → Below g p t before after →
        linked.node p = { g.node p with children := before ++ new :: after }) ∧
      ∀ i, i ≠ new → parent ≠ some i → linked.node i = g.node i := by
  cases hangs with
  | root hroot =>
      have hrun : (Edit.replace (rootId t) new).run g =
          (Edit.detach (rootId t)).run (g.setRoot (some new)) := by
        simp only [Edit.replace, if_neg hne, EStateM.run, bind, EStateM.bind, get, getThe,
          MonadStateOf.get, EStateM.get, hnew, hold, hroot, if_true]
        rfl
      have hnode := node_setRoot g hbound
      refine ⟨_, hrun, size_setRoot .., root_setRoot .., ?_, by simp, fun i hi _ => ?_⟩
      · rw [hnode, if_pos rfl]
      · rw [hnode, if_neg hi]
  | @child p before after h =>
      have hslot := run_slot h.children h.root_not_mem
      have hset : (g.children p).set before.length new = before ++ new :: after := by
        rw [h.children]
        simp
      have hrun : (Edit.replace (rootId t) new).run g = (Edit.detach (rootId t)).run
          ((g.setChildren p (before ++ new :: after)).setParent new (some p)) := by
        simp only [EStateM.run] at hslot
        simp only [Edit.replace, if_neg hne, EStateM.run, bind, EStateM.bind, get, getThe,
          MonadStateOf.get, EStateM.get, hnew, hold, hslot, hset]
        rfl
      have hpnew : p ≠ new := by
        rintro rfl
        exact hoff rfl
      have hnode : ∀ i, ((g.setChildren p (before ++ new :: after)).setParent new (some p)).node i =
          if i = new then { g.node i with parent := some p }
          else if i = p then { g.node i with children := before ++ new :: after }
          else g.node i := by
        intro i
        rw [node_setParent _ (by simpa using hbound), node_setChildren _ h.bound]
        by_cases hi : i = new
        · simp [hi, Ne.symm hpnew]
        · simp [hi]
      refine ⟨_, hrun, by simp, by simp, ?_, ?_, fun i hi hip => ?_⟩
      · rw [hnode, if_pos rfl]
      · rintro q before' after' hq hbelow
        obtain rfl := Option.some.inj hq
        obtain ⟨rfl, rfl⟩ := h.place_unique hbelow
        rw [hnode, if_neg hpnew, if_pos rfl]
      · rw [hnode, if_neg hi, if_neg (by simpa using Ne.symm hip)]

/-- **A loose tree takes the place of another.**  What the old root still lists
as children are nodes of the old tree, or do not note it as their parent. -/
theorem run_replace {g : Graph} {parent : Option NodeId} {t t' : Tree Spot}
    (hbound : rootId t < g.nodes.size) (hold : g.parent (rootId t) = parent)
    (hangs : Hangs g t parent) (hlaid : Laid g none t') (hnodup : (indices t').Nodup)
    (hroot : rootId t ∉ indices t') (hoff : ∀ i ∈ indices t', parent ≠ some i)
    (horphans : ∀ i ∈ g.children (rootId t), g.parent i = some (rootId t) →
      i ∈ indices t ∧ i ∉ indices t') :
    ∃ g', (Edit.replace (rootId t) (rootId t')).run g = .ok () g' ∧
      g'.nodes.size = g.nodes.size ∧ Laid g' parent t' ∧
      g'.root = (if parent = none then some (rootId t') else g.root) ∧
      (∀ p before after, parent = some p → Below g p t before after →
        g'.node p = { g.node p with children := before ++ rootId t' :: after }) ∧
      ∀ i, i ∉ indices t → i ∉ indices t' → parent ≠ some i → g'.node i = g.node i := by
  have hne : rootId t ≠ rootId t' := fun heq => hroot (heq ▸ rootId_mem_indices t')
  obtain ⟨linked, hrun, hsize, hlinkedRoot, hnew, howner, hothers⟩ :=
    run_replace_exchange hne hold hangs hlaid.root_lt hlaid.parent_root
      (hoff _ (rootId_mem_indices t'))
  have holdNode : linked.node (rootId t) = g.node (rootId t) :=
    hothers _ hne (hangs.ne_parent (rootId_mem_indices t))
  have hbound' : rootId t < linked.nodes.size := by
    rw [hsize]
    exact hbound
  obtain ⟨g', hdetach, hsize', hroot', -, hnode⟩ := run_detach hbound'
  have hlinkedChildren : linked.children (rootId t) = g.children (rootId t) := by
    rw [children, holdNode]
    rfl
  rw [hlinkedChildren] at hnode
  have hparents : ∀ i, i ≠ rootId t' → linked.parent i = g.parent i := by
    intro i hi
    by_cases hip : parent = some i
    · cases hangs with
      | root _ => cases hip
      | child h =>
          obtain rfl := Option.some.inj hip
          rw [Graph.parent, howner _ _ _ rfl h]
          rfl
    · rw [Graph.parent, hothers i hi hip]
      rfl
  -- Only nodes of the old tree lose their parent.
  have hkept : ∀ i, i ≠ rootId t → (i ∈ indices t → i ∈ indices t') →
      g'.node i = linked.node i := by
    intro i hi hmem
    refine (hnode i hi).trans (if_neg ?_)
    rintro ⟨hchild, hparent⟩
    by_cases hi' : i = rootId t'
    · subst hi'
      rw [Graph.parent, hnew] at hparent
      exact hangs.ne_parent (rootId_mem_indices t) hparent
    · rw [hparents i hi'] at hparent
      obtain ⟨hit, hit'⟩ := horphans i hchild hparent
      exact hit' (hmem hit)
  have hne_of_mem : ∀ i ∈ indices t', i ≠ rootId t := fun i hi heq => hroot (heq ▸ hi)
  refine ⟨g', hrun.trans hdetach, hsize'.trans hsize, ?_, hroot'.trans hlinkedRoot, ?_, ?_⟩
  · refine hlaid.reparent hnodup (Nat.le_of_eq (hsize'.trans hsize).symm) ?_ fun i hi hir => ?_
    · have hmem := rootId_mem_indices t'
      rw [hkept _ (hne_of_mem _ hmem) fun _ => hmem, hnew]
    · rw [hkept i (hne_of_mem i hi) fun _ => hi, hothers i hir (hoff i hi)]
  · rintro p before after rfl hbelow
    have hp : p ≠ rootId t := fun heq => hbelow.off (heq ▸ rootId_mem_indices t)
    rw [hkept p hp fun hmem => absurd hmem hbelow.off, howner p before after rfl hbelow]
  · intro i hi hi' hparent
    have hir : i ≠ rootId t := fun heq => hi (heq ▸ rootId_mem_indices t)
    have hir' : i ≠ rootId t' := fun heq => hi' (heq ▸ rootId_mem_indices t')
    rw [hkept i hir fun hmem => absurd hmem hi, hothers i hir' hparent]

/-- **A tree that is ready for it takes the place of another.**  All that has
been done so far to make it ready has kept the nodes off the old tree and the
root of that tree. -/
theorem run_replace_ready {g g₁ : Graph} {parent : Option NodeId} {t t' : Tree Spot}
    (hlaid : Laid g parent t) (hangs : Hangs g t parent) (hgrows : g.nodes.size ≤ g₁.nodes.size)
    (hroot : g₁.root = g.root)
    (hkept : ∀ i, i < g.nodes.size → i ∉ indices t → g₁.node i = g.node i)
    (hkeptRoot : g₁.node (rootId t) = g.node (rootId t)) (hlaid' : Laid g₁ none t')
    (hnodup' : (indices t').Nodup)
    (hmembers : ∀ i ∈ indices t', i ∈ indices t ∧ i ≠ rootId t ∨ g.nodes.size ≤ i)
    (horphans : ∀ i ∈ g.children (rootId t), g₁.parent i = some (rootId t) →
      i ∈ indices t ∧ i ∉ indices t') :
    ∃ g', (Edit.replace (rootId t) (rootId t')).run g₁ = .ok () g' ∧
      Rewritten g g' parent t t' := by
  have hbound : rootId t < g.nodes.size := hlaid.root_lt
  have hparent_lt : ∀ i, g.nodes.size ≤ i → parent ≠ some i := by
    rintro i hi rfl
    cases hangs with
    | child h => exact absurd h.bound (Nat.not_lt.mpr hi)
  have hold : g₁.parent (rootId t) = parent := by
    rw [Graph.parent, hkeptRoot]
    exact hlaid.parent_root
  have hchildren : g₁.children (rootId t) = g.children (rootId t) := by
    rw [Graph.children, hkeptRoot]
    rfl
  have hroot' : rootId t ∉ indices t' := by
    intro hmem
    rcases hmembers _ hmem with ⟨-, hne⟩ | hge
    · exact hne rfl
    · exact absurd hbound (Nat.not_lt.mpr hge)
  have hoff : ∀ i ∈ indices t', parent ≠ some i := by
    intro i hi
    rcases hmembers i hi with ⟨hmem, -⟩ | hge
    · exact hangs.ne_parent hmem
    · exact hparent_lt i hge
  obtain ⟨g', hrun, hsize, hlaid₂, hroot₂, howner, hframe⟩ :=
    run_replace (Nat.lt_of_lt_of_le hbound hgrows) hold (hangs.frame hgrows hroot hkept) hlaid'
      hnodup' hroot' hoff (by rw [hchildren]; exact horphans)
  refine ⟨g', hrun, hlaid₂, hnodup', fun i hi => (hmembers i hi).imp_left And.left, ?_, ?_, ?_, ?_⟩
  · rw [hsize]
    exact hgrows
  · intro i hi hmem hparent
    have hmem' : i ∉ indices t' := by
      intro hi'
      rcases hmembers i hi' with ⟨h, -⟩ | hge
      · exact hmem h
      · exact absurd hi (Nat.not_lt.mpr hge)
    rw [hframe i hmem hmem' hparent, hkept i hi hmem]
  · rintro p before after rfl hbelow
    rw [howner p before after rfl (hbelow.frame hgrows hkept), hkept p hbelow.bound hbelow.off]
  · rw [hroot₂, hroot]

/-- A node that has an owner is taken from it before it replaces another. -/
theorem run_replace_of_owner {g g₁ : Graph} {old new owner : NodeId} (hne : old ≠ new)
    (howner : g.parent new = some owner) (hdiff : owner ≠ old)
    (hremove : (Edit.removeChild owner new).run g = .ok () g₁) (hnew : g₁.parent new = none) :
    (Edit.replace old new).run g = (Edit.replace old new).run g₁ := by
  simp only [EStateM.run] at hremove
  simp only [Edit.replace, if_neg hne, EStateM.run, bind, EStateM.bind, get, getThe,
    MonadStateOf.get, EStateM.get, howner, hnew, ne_eq, hdiff, not_false_eq_true, if_true, hremove]

/-- Removing a child takes it from the list and takes its parent from it. -/
theorem run_removeChild {g : Graph} {p child : NodeId} {before after : List NodeId}
    (hchildren : g.children p = before ++ child :: after) (h : child ∉ before) :
    (Edit.removeChild p child).run g =
      .ok () ((g.setChildren p (before ++ after)).setParent child none) := by
  have herase : (g.children p).eraseIdx before.length = before ++ after := by
    rw [hchildren, List.eraseIdx_append_of_length_le (Nat.le_refl _)]
    simp
  rw [Edit.removeChild, run_bind_of_ok (run_slot hchildren h), ← herase]
  rfl

end FilterQuery.Graph
