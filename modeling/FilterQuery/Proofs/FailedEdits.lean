import FilterQuery.Proofs.Surgery

/-!
# Failed edits

A replacement has three parts: the new node is taken from its owner, it is put
in the place of the old one, and the old one loses its links.  The first two may
fail, because the links that they follow are stale or because the old node is in
no place at all.  A part that fails leaves the graph as it was before this part,
and so does a removal.  Hence a replacement that fails in its first part changes
nothing.  But the second part may fail when the first one is done, and then the
new node is gone from its owner without being anywhere else.
-/

namespace FilterQuery.Graph

namespace Edit

/-- Takes a node from its owner before it replaces another one, unless that one
is its owner. -/
def release (old new : NodeId) : Edit Unit := do
  if let some owner := (← get).parent new then
    if owner ≠ old then removeChild owner new

/-- Puts a node where another one is. -/
def install (old new : NodeId) : Edit Unit := do
  let g ← get
  match g.parent old with
  | some parent =>
    let i ← slot parent old
    set ((g.setChildren parent ((g.children parent).set i new)).setParent new (some parent))
  | none =>
    if g.root = some old then set (g.setRoot (some new))
    else throw (QueryError.about (.detachedNode old (g.kind old)) (g.token old))

theorem replace_self (id : NodeId) : replace id id = pure () := by
  rw [replace, if_pos rfl]

/-- The old node loses its links whichever place the new one is put in. -/
theorem install_detach (old new : NodeId) : (do install old new; detach old) = (do
    let g ← get
    (g.parent old).elim
      (if g.root = some old then do
        set (g.setRoot (some new))
        detach old
      else do
        throw (QueryError.about (.detachedNode old (g.kind old)) (g.token old))
        detach old)
      fun parent => do
        let i ← slot parent old
        set ((g.setChildren parent ((g.children parent).set i new)).setParent new (some parent))
        detach old : Edit Unit) := by
  rw [install, bind_assoc]
  refine bind_congr fun g => ?_
  cases g.parent old with
  | none =>
      dsimp only [Option.elim]
      split <;> rfl
  | some parent => exact bind_assoc ..

/-- To replace a node by another one is to release that one, to install it, and
to detach the old one. -/
theorem replace_eq {old new : NodeId} (h : old ≠ new) :
    replace old new = (do release old new; install old new; detach old) := by
  rw [replace, if_neg h, release, bind_assoc, install_detach]
  refine bind_congr fun g => ?_
  cases g.parent new with
  | none =>
      dsimp only
      rw [pure_bind]
      exact bind_congr fun g => by cases g.parent old <;> rfl
  | some owner =>
      dsimp only
      split
      · exact bind_congr fun _ => bind_congr fun g => by cases g.parent old <;> rfl
      · rw [pure_bind]
        exact bind_congr fun g => by cases g.parent old <;> rfl

end Edit

section Parts

variable {β γ : Type} {g g' : Graph} {e : QueryError} {p child old new : NodeId}

/-- What stands behind a change that fails is not done. -/
theorem run_bind_of_error {change : Edit β} {next : β → Edit γ}
    (h : change.run g = .error e g') : (change >>= next).run g = .error e g' := by
  have hfailed : change g = .error e g' := h
  simp only [EStateM.run, bind, EStateM.bind, hfailed]

/-- The edit of a change that succeeds is its graph, without an error. -/
theorem edit_of_ok {change : Edit Unit} (h : change.run g = .ok () g') :
    g.edit change = (g', none) := by
  rw [edit, h]

/-- The edit of a change that fails is the graph at its failure, with the
error. -/
theorem edit_of_error {change : Edit Unit} (h : change.run g = .error e g') :
    g.edit change = (g', some e) := by
  rw [edit, h]

/-- A node that is no child has no slot, and the graph is left as it is. -/
theorem run_slot_of_not_mem (h : child ∉ g.children p) :
    (Edit.slot p child).run g =
      .error (.about (.notAChild child (g.kind child) p) (g.token child)) g := by
  have hindex : (g.children p).idxOf? child = none := by simpa using h
  rw [Edit.slot, run_get_bind, hindex]
  rfl

/-- A node that is no child is not removed, and the graph is left as it is. -/
theorem run_removeChild_of_not_mem (h : child ∉ g.children p) :
    (Edit.removeChild p child).run g =
      .error (.about (.notAChild child (g.kind child) p) (g.token child)) g := by
  rw [Edit.removeChild, run_bind_of_error (run_slot_of_not_mem h)]

/-- A replacement takes the new node from an owner that lists it and is not the
old node. -/
structure TakesFrom (g : Graph) (old new owner : NodeId) : Prop where
  parent : g.parent new = some owner
  ne : owner ≠ old
  listed : new ∈ g.children owner

/-- What comes of taking the new node from its owner. -/
inductive Released (g : Graph) (old new : NodeId) :
    EStateM.Result QueryError Graph Unit → Prop where
  /-- It has no owner, or the old node. -/
  | free (h : ∀ owner, g.parent new = some owner → owner = old) : Released g old new (.ok () g)
  | taken {owner : NodeId} {before after : List NodeId} (h : g.TakesFrom old new owner)
      (hchildren : g.children owner = before ++ new :: after) (hfirst : new ∉ before) :
      Released g old new (.ok () ((g.setChildren owner (before ++ after)).setParent new none))
  /-- Its parent link is stale. -/
  | stale {owner : NodeId} (hparent : g.parent new = some owner) (hne : owner ≠ old)
      (h : new ∉ g.children owner) :
      Released g old new (.error (.about (.notAChild new (g.kind new) owner) (g.token new)) g)

/-- The release of a node is one of its outcomes. -/
theorem released (g : Graph) (old new : NodeId) :
    Released g old new ((Edit.release old new).run g) := by
  cases hparent : g.parent new with
  | none =>
      have hrun : (Edit.release old new).run g = .ok () g := by
        rw [Edit.release, run_get_bind, hparent]
        rfl
      rw [hrun]
      exact .free fun owner howner => by simp [hparent] at howner
  | some owner =>
      have hrun : (Edit.release old new).run g =
          (if owner ≠ old then Edit.removeChild owner new else pure () : Edit Unit).run g := by
        rw [Edit.release, run_get_bind, hparent]
      rw [hrun]
      by_cases hne : owner = old
      · rw [hne] at hparent
        simp only [hne, ne_eq, not_true, if_false]
        exact .free fun owner' howner' => Option.some.inj (howner'.symm.trans hparent)
      · simp only [hne, ne_eq, not_false_eq_true, if_true]
        by_cases hmem : new ∈ g.children owner
        · obtain ⟨before, after, hchildren, hfirst⟩ := List.eq_append_cons_of_mem hmem
          rw [run_removeChild hchildren hfirst]
          exact .taken ⟨hparent, hne, hmem⟩ hchildren hfirst
        · rw [run_removeChild_of_not_mem hmem]
          exact .stale hparent hne hmem

/-- What comes of putting the new node where the old one is. -/
inductive Installed (g : Graph) (old new : NodeId) :
    EStateM.Result QueryError Graph Unit → Prop where
  | child {p : NodeId} {before after : List NodeId} (hparent : g.parent old = some p)
      (hchildren : g.children p = before ++ old :: after) (hfirst : old ∉ before) :
      Installed g old new
        (.ok () ((g.setChildren p (before ++ new :: after)).setParent new (some p)))
  | root (hparent : g.parent old = none) (hroot : g.root = some old) :
      Installed g old new (.ok () (g.setRoot (some new)))
  /-- Its parent link is stale. -/
  | stale {p : NodeId} (hparent : g.parent old = some p) (h : old ∉ g.children p) :
      Installed g old new (.error (.about (.notAChild old (g.kind old) p) (g.token old)) g)
  /-- It is in no place. -/
  | detached (hparent : g.parent old = none) (hroot : g.root ≠ some old) :
      Installed g old new (.error (.about (.detachedNode old (g.kind old)) (g.token old)) g)

/-- The installation of a node is one of its outcomes. -/
theorem installed (g : Graph) (old new : NodeId) :
    Installed g old new ((Edit.install old new).run g) := by
  cases hparent : g.parent old with
  | none =>
      by_cases hroot : g.root = some old
      · have hrun : (Edit.install old new).run g = .ok () (g.setRoot (some new)) := by
          rw [Edit.install, run_get_bind, hparent, if_pos hroot]
          rfl
        rw [hrun]
        exact .root hparent hroot
      · have hrun : (Edit.install old new).run g =
            .error (.about (.detachedNode old (g.kind old)) (g.token old)) g := by
          rw [Edit.install, run_get_bind, hparent, if_neg hroot]
          rfl
        rw [hrun]
        exact .detached hparent hroot
  | some p =>
      have hrun : (Edit.install old new).run g = (do
          let i ← Edit.slot p old
          set ((g.setChildren p ((g.children p).set i new)).setParent new (some p)) :
            Edit Unit).run g := by
        rw [Edit.install, run_get_bind, hparent]
      rw [hrun]
      by_cases hmem : old ∈ g.children p
      · obtain ⟨before, after, hchildren, hfirst⟩ := List.eq_append_cons_of_mem hmem
        have hset : (g.children p).set before.length new = before ++ new :: after := by
          rw [hchildren]
          simp
        rw [run_bind_of_ok (run_slot hchildren hfirst), hset]
        exact .child hparent hchildren hfirst
      · rw [run_bind_of_error (run_slot_of_not_mem hmem)]
        exact .stale hparent hmem

/-- **What comes of a replacement**: it fails with one of its parts, or both are
done and the old node loses its links. -/
theorem replace_cases (hne : old ≠ new) :
    (∃ e, (Edit.release old new).run g = .error e g ∧ g.edit (.replace old new) = (g, some e)) ∨
    ∃ g₁, (Edit.release old new).run g = .ok () g₁ ∧
      ((∃ e, (Edit.install old new).run g₁ = .error e g₁ ∧
        g.edit (.replace old new) = (g₁, some e)) ∨
      ∃ g₂ g₃, (Edit.install old new).run g₁ = .ok () g₂ ∧
        (Edit.detach old).run g₂ = .ok () g₃ ∧ g.edit (.replace old new) = (g₃, none)) := by
  rw [Edit.replace_eq hne]
  rcases hrelease : (Edit.release old new).run g with ⟨⟨⟩, g₁⟩ | ⟨e, g₁⟩
  · refine .inr ⟨g₁, rfl, ?_⟩
    rcases hinstall : (Edit.install old new).run g₁ with ⟨⟨⟩, g₂⟩ | ⟨e, g₂⟩
    · refine .inr ⟨g₂, _, rfl, rfl, edit_of_ok ?_⟩
      rw [run_bind_of_ok hrelease, run_bind_of_ok hinstall]
      rfl
    · obtain rfl : g₂ = g₁ := by
        have hinstalled := installed g₁ old new
        rw [hinstall] at hinstalled
        cases hinstalled <;> rfl
      refine .inl ⟨e, rfl, edit_of_error ?_⟩
      rw [run_bind_of_ok hrelease, run_bind_of_error hinstall]
  · obtain rfl : g₁ = g := by
      have hreleased := released g old new
      rw [hrelease] at hreleased
      cases hreleased
      rfl
    exact .inl ⟨e, rfl, edit_of_error (run_bind_of_error hrelease)⟩

end Parts

/-- The roots are the same, and the links of every node. -/
structure SameLinks (g g' : Graph) : Prop where
  root : g'.root = g.root
  children : ∀ i, g'.children i = g.children i
  parent : ∀ i, g'.parent i = g.parent i

theorem SameLinks.refl (g : Graph) : SameLinks g g := ⟨rfl, fun _ => rfl, fun _ => rfl⟩

section Failures

variable {g g' : Graph} {e : QueryError} {p child old new owner : NodeId}

/-- A removal fails before it changes anything. -/
theorem eq_of_removeChild_failed (h : g.edit (.removeChild p child) = (g', some e)) : g' = g := by
  by_cases hmem : child ∈ g.children p
  · obtain ⟨before, after, hchildren, hfirst⟩ := List.eq_append_cons_of_mem hmem
    rw [edit_of_ok (run_removeChild hchildren hfirst)] at h
    cases h
  · rw [edit_of_error (run_removeChild_of_not_mem hmem)] at h
    exact (Prod.mk.inj h).1.symm

/-- A release that fails has taken the node from no owner. -/
theorem Released.not_takesFrom (h : Released g old new (.error e g')) :
    ¬ g.TakesFrom old new owner := by
  cases h with
  | stale hparent hne hmem =>
      intro htakes
      obtain rfl := Option.some.inj (hparent.symm.trans htakes.parent)
      exact hmem htakes.listed

/-- A node that has been taken from its owner has other links. -/
theorem not_sameLinks_of_taken (h : g.TakesFrom old new owner) (ids : List NodeId) :
    ¬ SameLinks g ((g.setChildren owner ids).setParent new none) := by
  intro hsame
  have hbound : new < (g.setChildren owner ids).nodes.size := by
    simpa using lt_of_parent g h.parent
  have hparent := hsame.parent new
  rw [h.parent, parent, node_setParent _ hbound, if_pos rfl] at hparent
  cases hparent

/-- **A failed replacement leaves the graph as it was, or without the new node
below its owner.** -/
theorem replace_failed_cases (h : g.edit (.replace old new) = (g', some e)) :
    (g' = g ∧ ∀ owner, ¬ g.TakesFrom old new owner) ∨
    ∃ owner, g.TakesFrom old new owner ∧ g.edit (.removeChild owner new) = (g', none) ∧
      ¬ SameLinks g g' := by
  by_cases hne : old = new
  · rw [hne, Edit.replace_self] at h
    cases h
  · rcases replace_cases (g := g) hne with ⟨e', hrelease, hedit⟩ |
      ⟨g₁, hrelease, ⟨e', -, hedit⟩ | ⟨g₂, g₃, -, -, hedit⟩⟩
    · obtain ⟨rfl, -⟩ := Prod.mk.inj (hedit.symm.trans h)
      have hreleased := released g old new
      rw [hrelease] at hreleased
      exact .inl ⟨rfl, fun owner => hreleased.not_takesFrom⟩
    · obtain ⟨rfl, -⟩ := Prod.mk.inj (hedit.symm.trans h)
      have hreleased := released g old new
      rw [hrelease] at hreleased
      cases hreleased with
      | free hfree => exact .inl ⟨rfl, fun owner htakes => htakes.ne (hfree _ htakes.parent)⟩
      | @taken owner before after htakes hchildren hfirst =>
          exact .inr ⟨owner, htakes, edit_of_ok (run_removeChild hchildren hfirst),
            not_sameLinks_of_taken htakes _⟩
    · cases hedit.symm.trans h

end Failures

/-- **A failed edit leaves the links alone, unless it is a replacement that
takes the new node from an owner.**  What such a replacement leaves is the graph
without the new node below that owner. -/
theorem failed_edits_leave_the_links (g : Graph) :
    (∀ p child g' e, g.edit (.removeChild p child) = (g', some e) → SameLinks g g') ∧
    ∀ old new g' e, g.edit (.replace old new) = (g', some e) →
      (SameLinks g g' ↔ ∀ owner, ¬ g.TakesFrom old new owner) ∧
      ∀ owner, g.TakesFrom old new owner → g.edit (.removeChild owner new) = (g', none) := by
  refine ⟨fun p child g' e h => ?_, fun old new g' e h => ?_⟩
  · rw [eq_of_removeChild_failed h]
    exact .refl g
  · rcases replace_failed_cases h with ⟨rfl, hnone⟩ | ⟨owner, htakes, hremove, hlinks⟩
    · exact ⟨iff_of_true (.refl _) hnone, fun owner htakes => absurd htakes (hnone owner)⟩
    · refine ⟨iff_of_false hlinks fun hnone => hnone owner htakes, fun owner' htakes' => ?_⟩
      obtain rfl := Option.some.inj (htakes'.parent.symm.trans htakes.parent)
      exact hremove

/-- Two words under a conjunction, and a third one beside them. -/
def pairAndLooseWord : Graph :=
  let word (text : String) : NodeKind := .search { text, exact := false }
  let pair := ofTree (.node ⟨.and, {}⟩ [.leaf ⟨word "a", {}⟩, .leaf ⟨word "b", {}⟩])
  (pair.add (word "c") {}).1

/-- The third word is no child of the conjunction, and it is in no place that
this could take. -/
theorem failures_beside_a_pair :
    (∃ g' e, pairAndLooseWord.edit (.removeChild 2 3) = (g', some e) ∧
      SameLinks pairAndLooseWord g') ∧
    ∃ g' e, pairAndLooseWord.edit (.replace 3 2) = (g', some e) ∧
      SameLinks pairAndLooseWord g' := by
  obtain ⟨hremove, hreplace⟩ := failed_edits_leave_the_links pairAndLooseWord
  have hremoved : ∃ e, (pairAndLooseWord.edit (.removeChild 2 3)).2 = some e := ⟨_, rfl⟩
  have hreplaced : ∃ e, (pairAndLooseWord.edit (.replace 3 2)).2 = some e := ⟨_, rfl⟩
  obtain ⟨e, he⟩ := hremoved
  obtain ⟨e', he'⟩ := hreplaced
  refine ⟨⟨_, e, Prod.ext rfl he, hremove 2 3 _ e (Prod.ext rfl he)⟩,
    ⟨_, e', Prod.ext rfl he', (hreplace 3 2 _ e' (Prod.ext rfl he')).1.mpr ?_⟩⟩
  intro owner htakes
  cases htakes.parent

/-- The third word is in no place that the first one could take, but the first
one is gone from the conjunction. -/
theorem failed_replacement_by_a_child :
    (pairAndLooseWord.edit (.replace 3 0)).2 =
      some (.about (.detachedNode 3 (pairAndLooseWord.kind 3)) {}) ∧
    ¬ SameLinks pairAndLooseWord (pairAndLooseWord.edit (.replace 3 0)).1 := by
  have hlost : (pairAndLooseWord.edit (.replace 3 0)).1.children 2 = [1] := by decide +kernel
  refine ⟨by decide +kernel, fun hsame => ?_⟩
  cases hlost.symm.trans (hsame.children 2)

end FilterQuery.Graph
