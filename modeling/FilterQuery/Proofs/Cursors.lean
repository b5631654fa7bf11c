import FilterQuery.Graph.Cursor
import FilterQuery.Proofs.Links
import FilterQuery.Proofs.WellFormed

/-!
# Looking up the node under a cursor

A place of the text is looked for from the root downwards: each step goes to the
first child below which some token covers the place, and the search ends at a
node without such a child.  If what is reached from the root is a tree,
`IsUnderCursor` determines the node at which it ends: the token of this node
covers the place, no token below it does, and on the way to it no subtree to the
left was passed over that has such a token.

A token may be anywhere in the text, also beside those of the nodes below it.
-/

namespace FilterQuery.Graph

section Steps

variable {g : Graph} {d : Nat} {i j r x : NodeId}

/-- What can be reached from a reached node is reached. -/
theorem Reached.of_reaches (h : g.Reached i) (hij : g.Reaches i j) : g.Reached j := by
  induction hij with
  | refl => exact h
  | tail _ hstep ih =>
      obtain ⟨d, hd⟩ := ih
      exact ⟨d + 1, hd.child hstep⟩

/-- The reached nodes are those that can be reached from the root. -/
theorem reached_iff (hr : g.root = some r) : g.Reached i ↔ g.Reaches r i := by
  refine ⟨?_, Reached.of_reaches ⟨0, .root hr⟩⟩
  rintro ⟨d, hd⟩
  induction hd with
  | root hr' =>
      obtain rfl := Option.some.inj (hr.symm.trans hr')
      exact .refl
  | child _ hj ih => exact ih.tail hj

/-- A node below another one is reached in more steps. -/
theorem ReachedIn.of_isAbove (h : g.ReachedIn d i) (habove : g.IsAbove i j) :
    ∃ e, d < e ∧ g.ReachedIn e j := by
  induction habove with
  | single hstep => exact ⟨d + 1, Nat.lt_succ_self d, h.child hstep⟩
  | tail _ hstep ih =>
      obtain ⟨e, he, hreached⟩ := ih
      exact ⟨e + 1, Nat.lt_succ_of_lt he, hreached.child hstep⟩

namespace IsTree

/-- As many steps as the graph has nodes lead to a node without children. -/
theorem children_eq_nil (hg : g.IsTree) (h : g.ReachedIn d i) (hd : g.nodes.size ≤ d) :
    g.children i = [] := by
  refine List.eq_nil_iff_forall_not_mem.mpr fun j hj => ?_
  exact absurd (hg.steps_lt h (lt_of_mem_children g hj)) (Nat.not_lt.mpr hd)

/-- Of two nodes at one depth neither is above the other. -/
theorem not_isAbove (hg : g.IsTree) (hi : g.ReachedIn d i) (hj : g.ReachedIn d j) :
    ¬ g.IsAbove i j := by
  intro habove
  obtain ⟨e, he, hreached⟩ := hi.of_isAbove habove
  exact absurd (hg.steps_unique hj hreached) (Nat.ne_of_lt he)

/-- The nodes on the way to a node form a chain. -/
theorem reaches_total (hg : g.IsTree) (hi : g.Reached i) (hj : g.Reached j) (hix : g.Reaches i x)
    (hjx : g.Reaches j x) : g.Reaches i j ∨ g.Reaches j i := by
  induction hix with
  | refl => exact .inr hjx
  | @tail y x hiy hstep ih =>
      rcases Relation.ReflTransGen.cases_tail hjx with rfl | ⟨z, hjz, hstep'⟩
      · exact .inl (hiy.tail hstep)
      · obtain rfl := hg.owner y z x (hi.of_reaches hiy) (hj.of_reaches hjz) hstep hstep'
        exact ih hjz

/-- One child of a node only leads to a node below it. -/
theorem child_unique (hg : g.IsTree) {a b c : NodeId} (ha : g.Reached a) (hb : b ∈ g.children a)
    (hc : c ∈ g.children a) (hbx : g.Reaches b x) (hcx : g.Reaches c x) : b = c := by
  obtain ⟨d, hd⟩ := ha
  have hb' := hd.child hb
  have hc' := hd.child hc
  by_contra hne
  rcases hg.reaches_total hb'.reached hc'.reached hbx hcx with h | h
  · exact hg.not_isAbove hb' hc' (isAbove_of_reaches h hne)
  · exact hg.not_isAbove hc' hb' (isAbove_of_reaches h (Ne.symm hne))

end IsTree

end Steps

section Covers

variable {g : Graph} {position d fuel : Nat} {i x : NodeId}

/-- The place is in the token of the node, or at one of its ends. -/
def IsAt (g : Graph) (position : Nat) (i : NodeId) : Prop :=
  (g.token i).position ≤ position ∧ position ≤ (g.token i).position + (g.token i).length

/-- The place is at some node of the subtree. -/
def CoveredBelow (g : Graph) (position : Nat) (i : NodeId) : Prop :=
  ∃ j, g.Reaches i j ∧ g.IsAt position j

/-- A token contains a position exactly if it covers it. -/
theorem contains_iff : (g.token i).contains position = true ↔ g.IsAt position i := by
  rw [Token.contains, Token.stop, Bool.and_eq_true, decide_eq_true_iff, decide_eq_true_iff, IsAt]

/-- A position is covered below a node exactly if it is at the node or below a
child. -/
theorem coveredBelow_iff : g.CoveredBelow position i ↔
    g.IsAt position i ∨ ∃ j ∈ g.children i, g.CoveredBelow position j := by
  constructor
  · rintro ⟨k, hik, hk⟩
    rcases Relation.ReflTransGen.cases_head hik with rfl | ⟨j, hj, hjk⟩
    · exact .inl hk
    · exact .inr ⟨j, hj, k, hjk, hk⟩
  · rintro (hi | ⟨j, hj, k, hjk, hk⟩)
    · exact ⟨i, .refl, hi⟩
    · exact ⟨k, .head hj hjk, hk⟩

/-- Some tree of a list has a property if one of its members has. -/
theorem anyAll_eq_any {β : Type} (p : β → Bool) (ts : List (Tree β)) :
    Tree.anyAll p ts = ts.any (Tree.any p) := by
  induction ts with
  | nil => rfl
  | cons t ts ih => rw [Tree.anyAll, ih, List.any_cons]

/-- The tree below a node covers what the nodes that are reached from it do. -/
theorem IsTree.covers_unfoldFrom (hg : g.IsTree) (h : g.ReachedIn d i)
    (hfuel : g.nodes.size ≤ d + fuel) :
    covers position (g.unfoldFrom fuel i) = true ↔ g.CoveredBelow position i := by
  induction fuel generalizing d i with
  | zero =>
      rw [unfoldFrom, covers, Tree.leaf, Tree.any, Tree.anyAll, Bool.or_false, coveredBelow_iff,
        hg.children_eq_nil h hfuel, or_iff_left (by simp)]
      exact contains_iff
  | succ fuel ih =>
      have hchild : ∀ j ∈ g.children i,
          covers position (g.unfoldFrom fuel j) = true ↔ g.CoveredBelow position j :=
        fun j hj => ih (h.child hj) (by omega)
      rw [unfoldFrom, covers, Tree.any, anyAll_eq_any, List.any_map, Bool.or_eq_true,
        List.any_eq_true, coveredBelow_iff]
      refine or_congr contains_iff (exists_congr fun j => and_congr_right fun hj => ?_)
      exact hchild j hj

end Covers

/-- From one node down to the other, each step leads to the first child below
which a token covers the place, and there is none below the last node. -/
inductive Descends (g : Graph) (position : Nat) : NodeId → NodeId → Prop where
  | stop {i : NodeId} (h : ∀ j ∈ g.children i, ¬ g.CoveredBelow position j) :
      Descends g position i i
  | step {i j x : NodeId} {before after : List NodeId}
      (hchildren : g.children i = before ++ j :: after)
      (hbefore : ∀ k ∈ before, ¬ g.CoveredBelow position k) (hj : g.CoveredBelow position j)
      (h : Descends g position j x) : Descends g position i x

/-- What a lookup finds. -/
structure IsUnderCursor (g : Graph) (position : Nat) (x : NodeId) : Prop where
  reached : g.Reached x
  isAt : g.IsAt position x
  /-- The place is at no node below. -/
  deepest : ∀ y, g.IsAbove x y → ¬ g.IsAt position y
  /-- At no step on the way from the root is it in the subtree of an earlier
  child. -/
  first : ∀ a b before after, g.Reached a → g.children a = before ++ b :: after → g.Reaches b x →
    ∀ c ∈ before, ∀ y, g.Reaches c y → ¬ g.IsAt position y

section Descent

variable {g : Graph} {position d fuel : Nat} {i x y : NodeId}

/-- The descent goes on in the first tree that covers the position. -/
theorem descendInto_eq_find? (position : Nat) (ts : List (Tree Place)) :
    descendInto position ts = (ts.find? (covers position)).map (descend position) := by
  induction ts with
  | nil => rfl
  | cons t ts ih =>
      rw [descendInto, ih, List.find?_cons]
      cases covers position t <;> rfl

/-- In a tree the lookup descends as the definition says. -/
theorem IsTree.descends (hg : g.IsTree) (h : g.ReachedIn d i) (hfuel : g.nodes.size ≤ d + fuel) :
    g.Descends position i (descend position (g.unfoldFrom fuel i)) := by
  induction fuel generalizing d i with
  | zero =>
      refine .stop fun j hj => ?_
      rw [hg.children_eq_nil h hfuel] at hj
      cases hj
  | succ fuel ih =>
      have hchild : ∀ j ∈ g.children i,
          covers position (g.unfoldFrom fuel j) = true ↔ g.CoveredBelow position j :=
        fun j hj => hg.covers_unfoldFrom (h.child hj) (by omega)
      rw [unfoldFrom, descend, descendInto_eq_find?, List.find?_map, Option.map_map]
      cases hfind : (g.children i).find? (covers position ∘ g.unfoldFrom fuel) with
      | none =>
          refine .stop fun j hj hcovered => ?_
          exact List.find?_eq_none.mp hfind j hj ((hchild j hj).mpr hcovered)
      | some j =>
          obtain ⟨hj, before, after, hchildren, hbefore⟩ := List.find?_eq_some_iff_append.mp hfind
          have hmem : j ∈ g.children i := by simp [hchildren]
          refine .step hchildren (fun k hk hcovered => ?_) ((hchild j hmem).mp hj)
            (ih (h.child hmem) (by omega))
          have hcovers := (hchild k (by simp [hchildren, hk])).mpr hcovered
          simpa [hcovers] using hbefore k hk

/-- A descent ends at a node that can be reached. -/
theorem Descends.reaches (h : g.Descends position i x) : g.Reaches i x := by
  induction h with
  | stop _ => exact .refl
  | step hchildren _ _ _ ih =>
      refine .head ?_ ih
      rw [Lists, hchildren]
      exact List.mem_append_right _ List.mem_cons_self

/-- Below the end of a descent nothing covers the position. -/
theorem Descends.deepest (h : g.Descends position i x) (habove : g.IsAbove x y) :
    ¬ g.IsAt position y := by
  induction h with
  | stop hnone =>
      obtain ⟨j, hj, hjy⟩ := Relation.TransGen.head'_iff.mp habove
      exact fun hy => hnone j hj ⟨y, hjy, hy⟩
  | step _ _ _ _ ih => exact ih habove

/-- A descent to a covered position ends at a node that covers it. -/
theorem Descends.isAt (h : g.Descends position i x) (hi : g.CoveredBelow position i) :
    g.IsAt position x := by
  induction h with
  | stop hnone =>
      exact (coveredBelow_iff.mp hi).resolve_right fun ⟨j, hj, hcovered⟩ => hnone j hj hcovered
  | step _ _ hj _ ih => exact ih hj

/-- A step on the way to the last node is a step of the descent. -/
theorem Descends.first (h : g.Descends position i x) (hg : g.IsTree) (hi : g.Reached i)
    {a b c : NodeId} {before after : List NodeId} (hia : g.Reaches i a)
    (hchildren : g.children a = before ++ b :: after) (hbx : g.Reaches b x) (hc : c ∈ before) :
    ¬ g.CoveredBelow position c := by
  have hmem : ∀ {k : NodeId} {us vs : List NodeId}, k ∈ us ++ k :: vs :=
    List.mem_append_right _ List.mem_cons_self
  have hb : b ∈ g.children a := hchildren ▸ hmem
  induction h with
  | @stop i hnone =>
      obtain ⟨d, hd⟩ := hi
      exact absurd (.trans_right hia (.head' hb hbx)) (hg.not_isAbove hd hd)
  | @step i j x before' after' hchildren' hbefore hj hdescends ih =>
      have hj' : j ∈ g.children i := hchildren' ▸ hmem
      rcases Relation.ReflTransGen.cases_head hia with rfl | ⟨k, hk, hka⟩
      · obtain rfl := hg.child_unique hi hb hj' hbx hdescends.reaches
        have hapart : b ∉ before ++ after :=
          (List.nodup_cons.mp (List.nodup_middle.mp (hchildren ▸ hg.once i hi))).1
        have hsame : before ++ b :: after = before' ++ b :: after' :=
          hchildren.symm.trans hchildren'
        obtain ⟨rfl, -, -⟩ := (List.append_cons_inj_of_notMem
          (fun h => hapart (List.mem_append_left _ h))
          (fun h => hapart (List.mem_append_right _ h))).mp hsame
        exact hbefore c hc
      · obtain rfl := hg.child_unique hi hk hj' (hka.trans (.head hb hbx)) hdescends.reaches
        exact ih (hi.of_reaches (.single hj')) hka hbx

/-- No other node is one that a lookup may find. -/
theorem Descends.eq_of_isUnderCursor (h : g.Descends position i x) (hi : g.Reached i)
    (hcovered : g.CoveredBelow position i) (hiy : g.Reaches i y) (hy : g.IsUnderCursor position y) :
    x = y := by
  induction h with
  | @stop i hnone =>
      rcases Relation.ReflTransGen.cases_head hiy with heq | ⟨j, hj, hjy⟩
      · exact heq
      · exact absurd ⟨y, hjy, hy.isAt⟩ (hnone j hj)
  | @step i j x before after hchildren hbefore hj hdescends ih =>
      have hmem : j ∈ g.children i := hchildren ▸ List.mem_append_right _ List.mem_cons_self
      have hdescended := hdescends.isAt hj
      rcases Relation.ReflTransGen.cases_head hiy with rfl | ⟨k, hk, hky⟩
      · exact absurd hdescended (hy.deepest x (.head' hmem hdescends.reaches))
      · rw [Lists, hchildren] at hk
        rcases List.mem_append.mp hk with hk | hk
        · exact absurd ⟨y, hky, hy.isAt⟩ (hbefore k hk)
        · rcases List.mem_cons.mp hk with rfl | hk
          · exact ih (hi.of_reaches (.single hmem)) hj hky
          · obtain ⟨between, behind, rfl⟩ := List.append_of_mem hk
            have hsplit : g.children i = (before ++ j :: between) ++ k :: behind := by
              simpa using hchildren
            exact absurd hdescended
              (hy.first i k _ behind hi hsplit hky j (by simp) x hdescends.reaches)

end Descent

section Lookup

variable {g : Graph} {position : Nat} {r x : NodeId}

/-- A lookup descends from the root, if that covers the position. -/
theorem nodeAt?_of_root (hr : g.root = some r) : g.nodeAt? position =
    if covers position (g.unfold r) then some (descend position (g.unfold r)) else none := by
  rw [nodeAt?, tree?, hr]
  rfl

/-- The root covers a position below it exactly if some reached node does. -/
theorem coveredBelow_root_iff (hr : g.root = some r) :
    g.CoveredBelow position r ↔ ∃ i, g.Reached i ∧ g.IsAt position i :=
  exists_congr fun _ => and_congr_left' (reached_iff hr).symm

/-- What the root unfolds to covers a position exactly if the root does below
it. -/
theorem IsTree.covers_unfold (hg : g.IsTree) (hr : g.root = some r) :
    covers position (g.unfold r) = true ↔ g.CoveredBelow position r :=
  hg.covers_unfoldFrom (.root hr) (by omega)

/-- A lookup finds something exactly if some reached node covers the
position. -/
theorem IsTree.isSome_nodeAt? (hg : g.IsTree) :
    (g.nodeAt? position).isSome ↔ ∃ i, g.Reached i ∧ g.IsAt position i := by
  cases hr : g.root with
  | none =>
      have hnone : g.nodeAt? position = none := by
        rw [nodeAt?, tree?, hr]
        rfl
      rw [hnone]
      refine iff_of_false Bool.false_ne_true ?_
      rintro ⟨i, hi, -⟩
      exact not_reached_of_root_eq_none hr i hi
  | some r =>
      rw [nodeAt?_of_root hr, ← coveredBelow_root_iff hr, ← hg.covers_unfold hr]
      split
      · rename_i hcovers
        exact iff_of_true rfl hcovers
      · rename_i hcovers
        exact iff_of_false Bool.false_ne_true hcovers

/-- The lookup ends where the descent from the root does. -/
theorem IsTree.descends_of_nodeAt? (hg : g.IsTree) (h : g.nodeAt? position = some x) :
    ∃ r, g.root = some r ∧ g.CoveredBelow position r ∧ g.Descends position r x := by
  obtain ⟨i, hi, -⟩ := hg.isSome_nodeAt?.mp (Option.isSome_of_eq_some h)
  cases hr : g.root with
  | none => exact absurd hi (not_reached_of_root_eq_none hr i)
  | some r =>
      rw [nodeAt?_of_root hr] at h
      split at h
      · rename_i hcovers
        obtain rfl := Option.some.inj h
        exact ⟨r, rfl, (hg.covers_unfold hr).mp hcovers, hg.descends (.root hr) (by omega)⟩
      · cases h

end Lookup

/-- **A lookup finds a node if the place is at one that is reached**, and then
the only one that is under the cursor. -/
theorem lookups_are_sound_and_complete {g : Graph} (hg : g.IsTree) (position : Nat) :
    ((g.nodeAt? position).isSome ↔ ∃ i, g.Reached i ∧ g.IsAt position i) ∧
    ∀ x, g.nodeAt? position = some x ↔ g.IsUnderCursor position x := by
  refine ⟨hg.isSome_nodeAt?, fun x => ⟨fun h => ?_, fun h => ?_⟩⟩
  · obtain ⟨r, hr, hcovered, hdescends⟩ := hg.descends_of_nodeAt? h
    have hreached : g.Reached r := ⟨0, .root hr⟩
    refine ⟨(reached_iff hr).mpr hdescends.reaches, hdescends.isAt hcovered,
      fun y => hdescends.deepest, ?_⟩
    intro a b before after ha hchildren hbx c hc y hcy hy
    exact hdescends.first hg hreached ((reached_iff hr).mp ha) hchildren hbx hc ⟨y, hcy, hy⟩
  · obtain ⟨y, hy⟩ := Option.isSome_iff_exists.mp (hg.isSome_nodeAt?.mpr ⟨x, h.reached, h.isAt⟩)
    obtain ⟨r, hr, hcovered, hdescends⟩ := hg.descends_of_nodeAt? hy
    rw [hy, hdescends.eq_of_isUnderCursor ⟨0, .root hr⟩ hcovered ((reached_iff hr).mp h.reached) h]

/-- Two words, and between them the blank that stands for the conjunction. -/
def wordsAroundBlank : Graph :=
  ofTree (.node ⟨.and, ⟨" ", 4, 1⟩⟩
    [.leaf ⟨.search { text := "rock", exact := false }, ⟨"rock", 0, 4⟩⟩,
      .leaf ⟨.search { text := "live", exact := false }, ⟨"live", 5, 4⟩⟩])

/-- A cursor behind the first word is at the blank as well, and so is one in
front of the second. -/
theorem lookups_around_a_blank :
    wordsAroundBlank.IsTree ∧ wordsAroundBlank.IsUnderCursor 4 0 ∧
      wordsAroundBlank.IsUnderCursor 5 1 ∧
      ¬ ∃ i, wordsAroundBlank.Reached i ∧ wordsAroundBlank.IsAt 40 i := by
  have htree : wordsAroundBlank.IsTree :=
    (ofTree_isWellFormed (.two rfl (.leaf rfl) (.leaf rfl))).isTree
  have hlookup := lookups_are_sound_and_complete htree
  refine ⟨htree, ((hlookup 4).2 0).mp (by decide +kernel), ((hlookup 5).2 1).mp (by decide +kernel),
    fun h => ?_⟩
  have hnone : wordsAroundBlank.nodeAt? 40 = none := by decide +kernel
  have hsome := (hlookup 40).1.mpr h
  rw [hnone] at hsome
  cases hsome

end FilterQuery.Graph
