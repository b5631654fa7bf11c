import FilterQuery.Proofs.FailedEdits
import FilterQuery.Proofs.Links

/-!
# Transplants

A node that replaces another one takes its subtree along.  The replacement
rewrites links one at a time, first those of the new node's owner, and only then
looks up the slot of the old one, which may stand in the same child list.  The
links behind it are those of one formula: the old node has none, and every other
child list leaves out the new node where it was and has it where the old one
was.  What a transplant is follows from this formula.

The links of a graph are consistent in this sense even if a node that nobody
lists notes a parent.  A replacement of such a node fails, and so does one by
such a node, unless it notes the old one.
-/

namespace FilterQuery.Graph

/-- The nodes are the same ones, with links of their own. -/
structure Relinked (g g' : Graph) (children : NodeId → List NodeId)
    (parent : NodeId → Option NodeId) : Prop where
  size : g'.nodes.size = g.nodes.size
  node : ∀ i, g'.node i = { g.node i with children := children i, parent := parent i }

namespace Relinked

variable {g g' : Graph} {children : NodeId → List NodeId} {parent : NodeId → Option NodeId}

theorem refl (g : Graph) : Relinked g g g.children g.parent := ⟨rfl, fun _ => rfl⟩

/-- The children are those that the links say. -/
theorem children_eq (h : Relinked g g' children parent) (i : NodeId) :
    g'.children i = children i := by
  rw [Graph.children, h.node]

/-- The parent is the one that the links say. -/
theorem parent_eq (h : Relinked g g' children parent) (i : NodeId) : g'.parent i = parent i := by
  rw [Graph.parent, h.node]

/-- New children change the links of their node only. -/
theorem setChildren (h : Relinked g g' children parent) {id : NodeId} (hid : id < g.nodes.size)
    (ids : List NodeId) :
    Relinked g (g'.setChildren id ids) (Function.update children id ids) parent where
  size := (size_setChildren g' id ids).trans h.size
  node i := by
    rw [node_setChildren g' (h.size ▸ hid), h.node, Function.update_apply]
    split <;> rfl

/-- A new parent changes the links of its node only. -/
theorem setParent (h : Relinked g g' children parent) {id : NodeId} (hid : id < g.nodes.size)
    (owner : Option NodeId) :
    Relinked g (g'.setParent id owner) children (Function.update parent id owner) where
  size := (size_setParent g' id owner).trans h.size
  node i := by
    rw [node_setParent g' (h.size ▸ hid), h.node, Function.update_apply]
    split <;> rfl

/-- A new root loses its parent only. -/
theorem setRoot (h : Relinked g g' children parent) {id : NodeId} (hid : id < g.nodes.size) :
    Relinked g (g'.setRoot (some id)) children (Function.update parent id none) where
  size := (size_setRoot g' (some id)).trans h.size
  node := (h.setParent hid none).node

end Relinked

/-- The new node for the old one, and every other one for itself. -/
def exchange (old new i : NodeId) : NodeId := if i = old then new else i

section Exchange

variable {old new i : NodeId} {ids before after : List NodeId}

theorem exchange_of_ne (h : i ≠ old) : exchange old new i = i := if_neg h

/-- Without the old node the exchange changes nothing. -/
theorem map_exchange_of_not_mem (h : old ∉ ids) : ids.map (exchange old new) = ids :=
  (List.map_congr_left fun _ hi => exchange_of_ne (ne_of_mem_of_not_mem hi h)).trans
    (List.map_id ids)

/-- The new node stands where the old one was. -/
theorem map_exchange (h : (before ++ old :: after).Nodup) :
    (before ++ old :: after).map (exchange old new) = before ++ new :: after := by
  obtain ⟨-, hafter, hbefore⟩ := List.nodup_append'.mp h
  have hbefore' : old ∉ before := fun hmem => hbefore hmem (by simp)
  rw [List.map_append, List.map_cons, map_exchange_of_not_mem hbefore',
    map_exchange_of_not_mem (List.nodup_cons.mp hafter).1, exchange, if_pos rfl]

/-- The exchange lists nothing twice if the new node is not there. -/
theorem nodup_map_exchange (hids : ids.Nodup) (hnew : new ∉ ids) :
    (ids.map (exchange old new)).Nodup := by
  refine hids.map_on fun i hi j hj heq => ?_
  have hne : ∀ k ∈ ids, k ≠ new := fun k hk heq => hnew (heq ▸ hk)
  by_cases hiold : i = old <;> by_cases hjold : j = old
  · rw [hiold, hjold]
  · rw [exchange, if_pos hiold, exchange_of_ne hjold] at heq
    exact absurd heq.symm (hne j hj)
  · rw [exchange_of_ne hiold, exchange, if_pos hjold] at heq
    exact absurd heq (hne i hi)
  · rwa [exchange_of_ne hiold, exchange_of_ne hjold] at heq

/-- An entry other than the one in the middle is taken out before or behind
it. -/
theorem erase_around (h : (before ++ old :: after).Nodup) (hne : old ≠ new) :
    (before ++ old :: after).erase new = before.erase new ++ old :: after.erase new := by
  by_cases hmem : new ∈ before
  · have hafter : new ∉ after := fun hmem' =>
      (List.nodup_append'.mp h).2.2 hmem (List.mem_cons_of_mem old hmem')
    rw [List.erase_append_left _ hmem, List.erase_of_not_mem hafter]
  · rw [List.erase_append_right _ hmem, List.erase_cons_tail (by simpa using hne),
      List.erase_of_not_mem hmem]

end Exchange

section Links

variable (g : Graph) (old new : NodeId)

/-- The child list of a node without the new node, which stands in the place of
the old one. -/
def transplant (i : NodeId) : List NodeId := ((g.children i).erase new).map (exchange old new)

/-- The child lists when the new node is taken from its owner, but not from the
old node. -/
def childrenReleased : NodeId → List NodeId :=
  Function.update (fun i => (g.children i).erase new) old (g.children old)

/-- The child lists when the new node is in its place, and the old one still
lists its children. -/
def childrenInstalled : NodeId → List NodeId :=
  Function.update (g.transplant old new) old (g.children old)

/-- The child lists behind the replacement. -/
def childrenBehind : NodeId → List NodeId := Function.update (g.transplant old new) old []

/-- The parents behind the replacement. -/
def parentsBehind (i : NodeId) : Option NodeId :=
  if i = old then none
  else if i = new then g.parent old
  else if i ∈ g.children old then none
  else g.parent i

variable {g old new} {i : NodeId}

theorem childrenBehind_self : g.childrenBehind old new old = [] := Function.update_self ..

/-- Every other node has the new node in place of the old one. -/
theorem childrenBehind_of_ne (hi : i ≠ old) :
    g.childrenBehind old new i = g.transplant old new i := Function.update_of_ne hi ..

theorem parentsBehind_self : g.parentsBehind old new old = none := if_pos rfl

theorem parentsBehind_new (hne : old ≠ new) : g.parentsBehind old new new = g.parent old := by
  rw [parentsBehind, if_neg hne.symm, if_pos rfl]

/-- The children of the old node lose their parent, and all others keep
theirs. -/
theorem parentsBehind_of_ne (hold : i ≠ old) (hnew : i ≠ new) :
    g.parentsBehind old new i = if i ∈ g.children old then none else g.parent i := by
  rw [parentsBehind, if_neg hold, if_neg hnew]

variable (g old new)

/-- The nodes are there, and neither parent link that the replacement follows is
stale: the old node has a place, and an owner that the new one notes lists it,
unless this is the old node. -/
structure IsReady : Prop where
  old_lt : old < g.nodes.size
  new_lt : new < g.nodes.size
  place : g.HasPlace old
  owner : ∀ p, g.parent new = some p → p ≠ old → new ∈ g.children p

end Links

section Parts

variable {g g₁ : Graph} {old new p : NodeId} {before after : List NodeId}

/-- A node in a place is listed by its parent. -/
theorem HasPlace.mem_children (hplace : g.HasPlace old) (hg : g.IsLinked)
    (hparent : g.parent old = some p) : old ∈ g.children p := by
  rcases hplace with hroot | ⟨q, hq, hmem⟩
  · cases (hg.root old hroot).symm.trans hparent
  · rwa [Option.some.inj (hparent.symm.trans hq)]

/-- A node in a place without a parent is the root. -/
theorem HasPlace.root_eq (hplace : g.HasPlace old) (hparent : g.parent old = none) :
    g.root = some old := by
  rcases hplace with hroot | ⟨p, hp, -⟩
  · exact hroot
  · cases hparent.symm.trans hp

/-- A node in a place is not its own parent. -/
theorem HasPlace.parent_ne (hplace : g.HasPlace old) (hg : g.IsLinked) :
    g.parent old ≠ some old :=
  fun hparent => hg.ne_of_mem (hplace.mem_children hg hparent) rfl

/-- A node that another one lists is not the root. -/
theorem IsLinked.root_ne (hg : g.IsLinked) (h : old ∈ g.children p) : g.root ≠ some old := by
  intro hroot
  cases (hg.root old hroot).symm.trans (hg.owner p old h)

/-- A node that does not list the old one only loses the new one. -/
theorem transplant_of_not_mem (h : old ∉ g.children p) :
    g.transplant old new p = (g.children p).erase new :=
  map_exchange_of_not_mem fun hmem => h (List.mem_of_mem_erase hmem)

/-- A node without an owner other than the old node is in no other list. -/
theorem childrenReleased_of_free (hg : g.IsLinked) (h : ∀ p, g.parent new = some p → p = old) :
    g.childrenReleased old new = g.children := by
  funext i
  by_cases hi : i = old
  · rw [hi, childrenReleased, Function.update_self]
  · rw [childrenReleased, Function.update_of_ne hi, List.erase_of_not_mem]
    exact fun hmem => hi (h i (hg.owner i new hmem))

/-- Only its owner's list loses a node that is taken from it. -/
theorem childrenReleased_of_owned (hg : g.IsLinked) (hp : p ≠ old)
    (hchildren : g.children p = before ++ new :: after) (hfirst : new ∉ before) :
    g.childrenReleased old new = Function.update g.children p (before ++ after) := by
  funext i
  by_cases hi : i = p
  · rw [hi, childrenReleased, Function.update_of_ne hp, Function.update_self, hchildren,
      List.erase_append_right _ hfirst, List.erase_cons_head]
  · have howner : new ∈ g.children p := by simp [hchildren]
    rw [childrenReleased, Function.update_of_ne hi, Function.update_apply,
      List.erase_of_not_mem fun hmem => hi (hg.owner_unique hmem howner)]
    split
    · rename_i hold
      rw [hold]
    · rfl

/-- Only the list of the old node's parent changes when the new one is put into
it. -/
theorem childrenInstalled_of_child (hg : g.IsLinked) (hmem : old ∈ g.children p)
    (hchildren : (g.children p).erase new = before ++ old :: after) :
    g.childrenInstalled old new =
      Function.update (g.childrenReleased old new) p (before ++ new :: after) := by
  have hnodup : (before ++ old :: after).Nodup := hchildren ▸ (hg.once p).erase new
  funext i
  by_cases hi : i = p
  · rw [hi, Function.update_self, childrenInstalled, Function.update_of_ne (hg.ne_of_mem hmem),
      transplant, hchildren, map_exchange hnodup]
  · rw [Function.update_of_ne hi, childrenInstalled, childrenReleased, Function.update_apply,
      Function.update_apply, transplant_of_not_mem fun hmem' => hi (hg.owner_unique hmem' hmem)]

/-- At the root nothing lists the old node. -/
theorem childrenInstalled_of_root (hg : g.IsLinked) (hparent : g.parent old = none) :
    g.childrenInstalled old new = g.childrenReleased old new := by
  funext i
  rw [childrenInstalled, childrenReleased, Function.update_apply, Function.update_apply,
    transplant_of_not_mem]
  intro hmem
  cases hparent.symm.trans (hg.owner i old hmem)

/-- **The first part** takes the new node out of every child list but that of
the old one. -/
theorem run_release (hg : g.IsLinked) (h : g.IsReady old new) :
    ∃ g₁ parent, (Edit.release old new).run g = .ok () g₁ ∧ g₁.root = g.root ∧
      Relinked g g₁ (g.childrenReleased old new) (Function.update g.parent new parent) := by
  have hreleased := released g old new
  rcases hrun : (Edit.release old new).run g with ⟨⟨⟩, g₁⟩ | ⟨e, g₁⟩ <;> rw [hrun] at hreleased
  · cases hreleased with
    | free hfree =>
        refine ⟨g, g.parent new, rfl, rfl, ?_⟩
        rw [childrenReleased_of_free hg hfree, Function.update_eq_self]
        exact .refl g
    | taken htakes hchildren hfirst =>
        refine ⟨_, none, rfl, rfl, ?_⟩
        rw [childrenReleased_of_owned hg htakes.ne hchildren hfirst]
        have howner := lt_of_mem_children g htakes.listed
        exact ((Relinked.refl g).setChildren howner _).setParent h.new_lt none
  · cases hreleased with
    | stale hparent hne hmem => exact absurd (h.owner _ hparent hne) hmem

/-- **The second part** puts the new node in the place of the old one. -/
theorem run_install (hg : g.IsLinked) (h : g.IsReady old new) (hne : old ≠ new)
    {parent : Option NodeId} (hroot : g₁.root = g.root)
    (hlinks : Relinked g g₁ (g.childrenReleased old new) (Function.update g.parent new parent)) :
    ∃ g₂, (Edit.install old new).run g₁ = .ok () g₂ ∧
      g₂.root = (if g.root = some old then some new else g.root) ∧
      Relinked g g₂ (g.childrenInstalled old new)
        (Function.update g.parent new (g.parent old)) := by
  have hparent₁ : g₁.parent old = g.parent old := by
    rw [hlinks.parent_eq, Function.update_of_ne hne]
  have hchildren₁ : ∀ p, g.parent old = some p → g₁.children p = (g.children p).erase new := by
    intro p hp
    rw [hlinks.children_eq, childrenReleased, Function.update_of_ne]
    rintro rfl
    exact h.place.parent_ne hg hp
  have hinstalled := installed g₁ old new
  rcases hrun : (Edit.install old new).run g₁ with ⟨⟨⟩, g₂⟩ | ⟨e, g₂⟩ <;> rw [hrun] at hinstalled
  · cases hinstalled with
    | @child p before after hparent hchildren hfirst =>
        have hp := hparent₁.symm.trans hparent
        have hmem := h.place.mem_children hg hp
        have hdone := (hlinks.setChildren (lt_of_mem_children g hmem)
          (before ++ new :: after)).setParent h.new_lt (some p)
        rw [Function.update_idem, ← childrenInstalled_of_child hg hmem
          ((hchildren₁ p hp).symm.trans hchildren)] at hdone
        refine ⟨_, rfl, ?_, ?_⟩
        · rw [if_neg (hg.root_ne hmem)]
          exact hroot
        · rwa [hp]
    | root hparent _ =>
        have hp := hparent₁.symm.trans hparent
        have hdone := hlinks.setRoot h.new_lt
        rw [Function.update_idem, ← childrenInstalled_of_root hg hp] at hdone
        refine ⟨_, rfl, ?_, ?_⟩
        · rw [if_pos (h.place.root_eq hp)]
          exact root_setRoot g₁ (some new)
        · rwa [hp]
  · cases hinstalled with
    | @stale p hparent hmem =>
        have hp := hparent₁.symm.trans hparent
        rw [hchildren₁ p hp] at hmem
        exact absurd ((List.mem_erase_of_ne hne).mpr (h.place.mem_children hg hp)) hmem
    | detached hparent hroot' =>
        rw [hroot] at hroot'
        exact absurd (h.place.root_eq (hparent₁.symm.trans hparent)) hroot'

/-- **The links behind a replacement.** -/
theorem replace_relinks (hg : g.IsLinked) (h : g.IsReady old new) (hne : old ≠ new) :
    ∃ g', g.edit (.replace old new) = (g', none) ∧
      g'.root = (if g.root = some old then some new else g.root) ∧
      Relinked g g' (g.childrenBehind old new) (g.parentsBehind old new) := by
  obtain ⟨g₁, parent, hrelease, hroot₁, hlinks₁⟩ := run_release hg h
  obtain ⟨g₂, hinstall, hroot₂, hlinks₂⟩ := run_install hg h hne hroot₁ hlinks₁
  obtain ⟨g₃, hdetach, hsize₃, hroot₃, hnode₃, hothers₃⟩ :=
    run_detach (hlinks₂.size ▸ h.old_lt : old < g₂.nodes.size)
  refine ⟨g₃, ?_, hroot₃.trans hroot₂, hsize₃.trans hlinks₂.size, fun i => ?_⟩
  · rw [Edit.replace_eq hne]
    refine edit_of_ok ?_
    rw [run_bind_of_ok hrelease, run_bind_of_ok hinstall, hdetach]
  by_cases hi : i = old
  · rw [hi, hnode₃, hlinks₂.node, childrenBehind_self, parentsBehind_self]
  · rw [hothers₃ i hi, hlinks₂.node, hlinks₂.children_eq, hlinks₂.parent_eq,
      childrenBehind_of_ne hi, childrenInstalled, Function.update_of_ne hi, Function.update_self]
    by_cases hinew : i = new
    · subst hinew
      rw [Function.update_self, if_neg fun hmem => h.place.parent_ne hg hmem.2,
        parentsBehind_new hne]
    · rw [Function.update_of_ne hinew, parentsBehind_of_ne hi hinew]
      -- The children of the old node note it as their parent until it loses them.
      by_cases hmem : i ∈ g.children old
      · rw [if_pos ⟨hmem, hg.owner old i hmem⟩, if_pos hmem]
      · rw [if_neg fun hmem' => hmem hmem'.1, if_neg hmem]

end Parts

/-- The new node has been put with its subtree in the place of the old one. -/
structure Transplanted (g g' : Graph) (old new : NodeId) : Prop where
  /-- The links are consistent again. -/
  linked : g'.IsLinked
  /-- The new node is the root if the old one was it, -/
  root : g'.root = if g.root = some old then some new else g.root
  /-- or else it stands in the list of that one's parent, among the same nodes
  in their order. -/
  place : ∀ p before after, g.children p = before ++ old :: after →
    g'.children p = before.erase new ++ new :: after.erase new
  parent : g'.parent new = g.parent old
  /-- All below the new node is as it was. -/
  subtree : ∀ i, g.Reaches new i →
    g'.children i = g.children i ∧ (i ≠ new → g'.parent i = g.parent i)
  /-- An owner that is not the parent of both nodes loses the new one and
  nothing else. -/
  owner : ∀ p, p ≠ old → old ∉ g.children p → new ∈ g.children p →
    g'.children p = (g.children p).erase new
  /-- The old node has no links, -/
  alone : g'.children old = [] ∧ g'.parent old = none
  /-- and its other children have no parent. -/
  orphans : ∀ i ∈ g.children old, i ≠ new → g'.parent i = none
  /-- No other list changes, -/
  children : ∀ i, i ≠ old → old ∉ g.children i → new ∉ g.children i → g'.children i = g.children i
  /-- no other parent, -/
  parents : ∀ i, i ≠ old → i ≠ new → i ∉ g.children old → g'.parent i = g.parent i
  /-- and nothing but links. -/
  node : ∀ i, g'.node i = { g.node i with children := g'.children i, parent := g'.parent i }
  size : g'.nodes.size = g.nodes.size
  /-- No link is stale if none was. -/
  places : (∀ i p, g.parent i = some p → i ∈ g.children p) →
    ∀ i p, g'.parent i = some p → i ∈ g'.children p

section Behind

variable {g : Graph} {old new i j p : NodeId} {before after : List NodeId}

/-- Behind the exchange the new node is listed where the old one was, and all
others where they were. -/
theorem mem_transplant (hg : g.IsLinked) (hne : old ≠ new) :
    j ∈ g.transplant old new i ↔
      old ∈ g.children i ∧ j = new ∨ j ∈ g.children i ∧ j ≠ old ∧ j ≠ new := by
  rw [transplant, List.mem_map]
  constructor
  · rintro ⟨k, hk, rfl⟩
    obtain ⟨hknew, hk⟩ := (hg.once i).mem_erase_iff.mp hk
    by_cases hkold : k = old
    · rw [exchange, if_pos hkold]
      exact .inl ⟨hkold ▸ hk, rfl⟩
    · rw [exchange_of_ne hkold]
      exact .inr ⟨hk, hkold, hknew⟩
  · rintro (⟨hold, rfl⟩ | ⟨hj, hjold, hjnew⟩)
    · exact ⟨old, (List.mem_erase_of_ne hne).mpr hold, if_pos rfl⟩
    · exact ⟨j, (List.mem_erase_of_ne hjnew).mpr hj, exchange_of_ne hjold⟩

/-- The like when the old node has lost its children. -/
theorem mem_childrenBehind (hg : g.IsLinked) (hne : old ≠ new) :
    j ∈ g.childrenBehind old new i ↔
      i ≠ old ∧ (old ∈ g.children i ∧ j = new ∨ j ∈ g.children i ∧ j ≠ old ∧ j ≠ new) := by
  by_cases hi : i = old
  · simp [hi, childrenBehind_self]
  · rw [childrenBehind_of_ne hi, mem_transplant hg hne]
    exact (and_iff_right hi).symm

/-- What stands around the old node then stands around the new one. -/
theorem transplant_around (hg : g.IsLinked) (hne : old ≠ new)
    (h : g.children p = before ++ old :: after) :
    g.transplant old new p = before.erase new ++ new :: after.erase new := by
  have hnodup : (before ++ old :: after).Nodup := h ▸ hg.once p
  have herased := erase_around hnodup hne
  rw [transplant, h, herased, map_exchange (herased ▸ hnodup.erase new)]

/-- The old node is not below the new one, nor is what only the old one
lists. -/
theorem not_mem_of_below (hg : g.IsLinked) (hne : old ≠ new) (habove : ¬ g.IsAbove new old)
    (h : g.Reaches new i) : i ≠ old ∧ old ∉ g.children i ∧ (i ≠ new → i ∉ g.children old) := by
  refine ⟨?_, fun hmem => habove (.tail' h hmem), fun hinew hmem => ?_⟩
  · rintro rfl
    exact habove (isAbove_of_reaches h hne.symm)
  · rcases Relation.ReflTransGen.cases_tail h with heq | ⟨k, hk, hki⟩
    · exact hinew heq
    · obtain rfl := hg.owner_unique hki hmem
      exact habove (isAbove_of_reaches hk hne.symm)

end Behind

section Transplants

variable {g g' : Graph} {old new : NodeId}

/-- A linked graph stays linked when its links are those behind the
replacement. -/
theorem IsLinked.of_relinked (hg : g.IsLinked) (h : g.IsReady old new) (hne : old ≠ new)
    (hnew : g.root ≠ some new) (habove : ¬ g.IsAbove new old)
    (hroot : g'.root = if g.root = some old then some new else g.root)
    (hlinks : Relinked g g' (g.childrenBehind old new) (g.parentsBehind old new)) :
    g'.IsLinked := by
  have hlists : ∀ i j, j ∈ g'.children i ↔
      i ≠ old ∧ (old ∈ g.children i ∧ j = new ∨ j ∈ g.children i ∧ j ≠ old ∧ j ≠ new) :=
    fun i j => by rw [hlinks.children_eq, mem_childrenBehind hg hne]
  refine ⟨fun i j hj => ?_, fun i => ?_, ?_, fun r hr => ?_⟩
  · obtain ⟨hi, ⟨hold, rfl⟩ | ⟨hj, hjold, hjnew⟩⟩ := (hlists i j).mp hj
    · rw [hlinks.parent_eq, parentsBehind_new hne]
      exact hg.owner i old hold
    · rw [hlinks.parent_eq, parentsBehind_of_ne hjold hjnew,
        if_neg fun hmem => hi (hg.owner_unique hj hmem)]
      exact hg.owner i j hj
  · rw [hlinks.children_eq]
    by_cases hi : i = old
    · rw [hi, childrenBehind_self]
      exact List.nodup_nil
    · rw [childrenBehind_of_ne hi]
      exact nodup_map_exchange ((hg.once i).erase new) (hg.once i).not_mem_erase
  · refine acyclic_of_steps hg.acyclic habove fun i j hj => ?_
    obtain ⟨-, hstep | hstep⟩ := (hlists i j).mp hj
    · exact .inr hstep
    · exact .inl hstep.1
  · rw [hlinks.parent_eq]
    by_cases hold : g.root = some old
    · rw [hroot, if_pos hold] at hr
      obtain rfl := Option.some.inj hr
      rw [parentsBehind_new hne]
      exact hg.root old hold
    · rw [hroot, if_neg hold] at hr
      have hrold : r ≠ old := by
        rintro rfl
        exact hold hr
      have hrnew : r ≠ new := by
        rintro rfl
        exact hnew hr
      rw [parentsBehind_of_ne hrold hrnew, hg.root r hr, ite_self]

/-- With the links behind the replacement the subtree has been transplanted. -/
theorem Transplanted.of_relinked (hg : g.IsLinked) (h : g.IsReady old new) (hne : old ≠ new)
    (hnew : g.root ≠ some new) (habove : ¬ g.IsAbove new old)
    (hroot : g'.root = if g.root = some old then some new else g.root)
    (hlinks : Relinked g g' (g.childrenBehind old new) (g.parentsBehind old new)) :
    Transplanted g g' old new where
  linked := hg.of_relinked h hne hnew habove hroot hlinks
  root := hroot
  place p before after hchildren := by
    have hp : p ≠ old := hg.ne_of_mem (by simp [hchildren])
    rw [hlinks.children_eq, childrenBehind_of_ne hp, transplant_around hg hne hchildren]
  parent := by rw [hlinks.parent_eq, parentsBehind_new hne]
  subtree i hi := by
    obtain ⟨hiold, hlists, hlisted⟩ := not_mem_of_below hg hne habove hi
    refine ⟨?_, fun hinew => ?_⟩
    · rw [hlinks.children_eq, childrenBehind_of_ne hiold, transplant_of_not_mem hlists,
        List.erase_of_not_mem (hg.not_mem_of_reaches hi)]
    · rw [hlinks.parent_eq, parentsBehind_of_ne hiold hinew, if_neg (hlisted hinew)]
  owner p hp hold _ := by
    rw [hlinks.children_eq, childrenBehind_of_ne hp, transplant_of_not_mem hold]
  alone := by
    rw [hlinks.children_eq, hlinks.parent_eq]
    exact ⟨childrenBehind_self, parentsBehind_self⟩
  orphans i hi hinew := by
    rw [hlinks.parent_eq, parentsBehind_of_ne (hg.ne_of_mem hi).symm hinew, if_pos hi]
  children i hi hold hmem := by
    rw [hlinks.children_eq, childrenBehind_of_ne hi, transplant_of_not_mem hold,
      List.erase_of_not_mem hmem]
  parents i hiold hinew hi := by
    rw [hlinks.parent_eq, parentsBehind_of_ne hiold hinew, if_neg hi]
  node i := by
    rw [hlinks.children_eq, hlinks.parent_eq]
    exact hlinks.node i
  size := hlinks.size
  places hplaces i p hp := by
    rw [hlinks.parent_eq] at hp
    rw [hlinks.children_eq, mem_childrenBehind hg hne]
    by_cases hiold : i = old
    · rw [hiold, parentsBehind_self] at hp
      cases hp
    by_cases hinew : i = new
    · rw [hinew, parentsBehind_new hne] at hp
      have hmem := hplaces old p hp
      exact ⟨hg.ne_of_mem hmem, .inl ⟨hmem, hinew⟩⟩
    rw [parentsBehind_of_ne hiold hinew] at hp
    by_cases hi : i ∈ g.children old
    · rw [if_pos hi] at hp
      cases hp
    · rw [if_neg hi] at hp
      have hmem := hplaces i p hp
      refine ⟨?_, .inr ⟨hmem, hiold, hinew⟩⟩
      rintro rfl
      exact hi hmem

end Transplants

/-- **A replacement is a transplant**, if the links are consistent, the new node
is neither the old one nor the root nor an ancestor of the old one, and no link
that the replacement follows is stale. -/
theorem replacement_is_a_transplant {g : Graph} {old new : NodeId} (hg : g.IsLinked)
    (hready : g.IsReady old new) (hne : old ≠ new) (hroot : g.root ≠ some new)
    (habove : ¬ g.IsAbove new old) :
    ∃ g', g.edit (.replace old new) = (g', none) ∧ Transplanted g g' old new := by
  obtain ⟨g', hedit, hroot', hlinks⟩ := replace_relinks hg hready hne
  exact ⟨g', hedit, .of_relinked hg hready hne hroot habove hroot' hlinks⟩

/-- A disjunction of two words beside a third one. -/
def pairBesideWord : Graph :=
  let word (text : String) : Tree Content := .leaf ⟨.search { text, exact := false }, {}⟩
  ofTree (.node ⟨.and, {}⟩ [.node ⟨.or, {}⟩ [word "a", word "b"], word "c"])

/-- The third word takes the place of the disjunction that it stands beside, and
stands there alone. -/
theorem word_in_place_of_a_pair :
    pairBesideWord.IsLinked ∧ pairBesideWord.IsReady 2 3 ∧
      ∃ g', pairBesideWord.edit (.replace 2 3) = (g', none) ∧ Transplanted pairBesideWord g' 2 3 ∧
        g'.children 4 = [3] ∧ g'.parent 0 = none ∧ g'.parent 1 = none := by
  have hlinked : pairBesideWord.IsLinked :=
    .of_stored (by decide +kernel) (by decide +kernel) (by rintro _ ⟨⟩; rfl)
  have hready : pairBesideWord.IsReady 2 3 := by
    have hplace : pairBesideWord.HasPlace 2 := .inr ⟨4, by decide +kernel, by decide +kernel⟩
    refine ⟨by decide +kernel, by decide +kernel, hplace, ?_⟩
    rintro _ ⟨⟩ -
    decide +kernel
  obtain ⟨g', hedit, htransplanted⟩ := replacement_is_a_transplant hlinked hready (by decide)
    (by decide +kernel) (not_isAbove_of_children_eq_nil (by decide +kernel))
  refine ⟨hlinked, hready, g', hedit, htransplanted, ?_, ?_, ?_⟩
  · exact htransplanted.place 4 [] [3] (by decide +kernel)
  · exact htransplanted.orphans 0 (by decide +kernel) (by decide)
  · exact htransplanted.orphans 1 (by decide +kernel) (by decide)

/-- A negated word and two loose ones, the second of which notes the negation as
its parent. -/
def staleBesideNegation : Graph :=
  let word (text : String) : NodeKind := .search { text, exact := false }
  let negation := ofTree (.node ⟨.not, {}⟩ [.leaf ⟨word "a", {}⟩])
  (((negation.add (word "b") {}).1.add (word "c") {}).1).setParent 3 (some 1)

/-- The links are consistent, but the word that notes the negation is in no
place that the other loose one could take, and it cannot be taken from the
negation. -/
theorem replacements_along_a_stale_link :
    staleBesideNegation.IsLinked ∧ staleBesideNegation.root = some 1 ∧
      staleBesideNegation.parent 3 = some 1 ∧
      (¬ staleBesideNegation.IsAbove 2 3 ∧ (staleBesideNegation.edit (.replace 3 2)).2 ≠ none) ∧
      staleBesideNegation.parent 0 = some 1 ∧
      ¬ staleBesideNegation.IsAbove 3 0 ∧ (staleBesideNegation.edit (.replace 0 3)).2 ≠ none := by
  have hlinked : staleBesideNegation.IsLinked :=
    .of_stored (by decide +kernel) (by decide +kernel) (by rintro _ ⟨⟩; rfl)
  have hloose : ¬ staleBesideNegation.IsAbove 2 3 :=
    not_isAbove_of_children_eq_nil (by decide +kernel)
  have hstale : ¬ staleBesideNegation.IsAbove 3 0 :=
    not_isAbove_of_children_eq_nil (by decide +kernel)
  exact ⟨hlinked, by decide +kernel, by decide +kernel, ⟨hloose, by decide +kernel⟩,
    by decide +kernel, hstale, by decide +kernel⟩

end FilterQuery.Graph
