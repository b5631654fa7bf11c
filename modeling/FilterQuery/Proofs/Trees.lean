import Mathlib
import FilterQuery.Tree

/-!
# Facts about trees

A tree is a label over a list of trees, so that a statement about all trees goes
through from the trees below a node to the node.  The height of a tree is the
number of steps to its deepest leaf; it bounds how far a pass over the tree has
to go down.
-/

namespace FilterQuery.Tree

variable {β γ δ : Type}

/-- **Induction over trees.**  What holds of a node whenever it holds of all
trees below it holds of every tree. -/
@[elab_as_elim, induction_eliminator]
theorem induction {motive : Tree β → Prop}
    (node : ∀ l ts, (∀ t ∈ ts, motive t) → motive (.node l ts)) : ∀ t, motive t
  | .node l ts => node l ts (below ts)
where
  below : ∀ ts : List (Tree β), ∀ t ∈ ts, motive t
    | u :: _, _, .head _ => induction node u
    | _ :: us, t, .tail _ h => below us t h

@[simp] theorem label_node (l : β) (ts : List (Tree β)) : (node l ts).label = l := rfl

@[simp] theorem children_node (l : β) (ts : List (Tree β)) : (node l ts).children = ts := rfl

@[simp] theorem map_node (f : β → γ) (l : β) (ts : List (Tree β)) :
    (node l ts).map f = node (f l) (ts.map (map f)) := by
  rw [map, mapAll_eq_map]

@[simp] theorem preorder_node (l : β) (ts : List (Tree β)) :
    (node l ts).preorder = l :: ts.flatMap preorder := by
  rw [preorder, preorderAll_eq_flatMap]

@[simp] theorem label_map (f : β → γ) (t : Tree β) : (t.map f).label = f t.label := by
  cases t with
  | node l ts => simp

@[simp] theorem children_map (f : β → γ) (t : Tree β) :
    (t.map f).children = t.children.map (map f) := by
  cases t with
  | node l ts => simp

/-- Labels changed twice are changed once by both changes. -/
theorem map_map (g : γ → δ) (f : β → γ) (t : Tree β) : (t.map f).map g = t.map (g ∘ f) := by
  induction t with
  | node l ts ih =>
      simp only [map_node, List.map_map, Function.comp_apply]
      congr 1
      exact List.map_congr_left fun t ht => ih t ht

/-- A tree whose labels are kept is the same. -/
theorem map_id (t : Tree β) : t.map id = t := by
  induction t with
  | node l ts ih =>
      rw [map_node, id_eq, List.map_congr_left ih]
      exact congrArg (node l) ts.map_id

/-- Trees look the same if their labels do and the trees below them. -/
theorem map_eq_map_iff {f : β → γ} {l m : β} {ts us : List (Tree β)} :
    (node l ts).map f = (node m us).map f ↔
      f l = f m ∧ List.Forall₂ (fun t u => t.map f = u.map f) ts us := by
  rw [map_node, map_node, node.injEq, ← List.forall₂_eq_eq_eq, List.forall₂_map_left_iff,
    List.forall₂_map_right_iff]

/-- Changing the labels keeps their order. -/
theorem preorder_map (f : β → γ) (t : Tree β) : (t.map f).preorder = t.preorder.map f := by
  induction t with
  | node l ts ih =>
      simp only [map_node, preorder_node, List.map_cons, List.flatMap_map, List.map_flatMap]
      congr 1
      exact List.flatMap_congr fun t ht => ih t ht

/-- What is below a child is below the node. -/
theorem mem_preorder_of_child {l : β} {ts : List (Tree β)} {t : Tree β} {m : β} (ht : t ∈ ts)
    (hm : m ∈ t.preorder) : m ∈ (node l ts).preorder := by
  rw [preorder_node]
  exact List.mem_cons_of_mem _ (List.mem_flatMap.mpr ⟨t, ht, hm⟩)

/-- What becomes one tree was one before. -/
theorem map_eq_one {f : β → γ} {ts : List β} {t : γ} (h : ts.map f = [t]) : ∃ a, ts = [a] := by
  obtain ⟨a, rfl, -⟩ := List.map_eq_singleton_iff.mp h
  exact ⟨a, rfl⟩

/-- What becomes two trees was two before. -/
theorem map_eq_pair {f : β → γ} {ts : List β} {l r : γ} (h : ts.map f = [l, r]) :
    ∃ a b, ts = [a, b] := by
  obtain ⟨a, as, rfl, -, has⟩ := List.map_eq_cons_iff.mp h
  obtain ⟨b, rfl, -⟩ := List.map_eq_singleton_iff.mp has
  exact ⟨a, b, rfl⟩

/-- What is related to one tree is one. -/
theorem forall₂_one {R : β → γ → Prop} {t : β} {us : List γ} (h : List.Forall₂ R [t] us) :
    ∃ t', us = [t'] ∧ R t t' := by
  obtain ⟨t', _, ht, hnil, rfl⟩ := List.forall₂_cons_left_iff.mp h
  obtain rfl := List.forall₂_nil_left_iff.mp hnil
  exact ⟨t', rfl, ht⟩

/-- What is related to two trees is two. -/
theorem forall₂_pair {R : β → γ → Prop} {l r : β} {us : List γ} (h : List.Forall₂ R [l, r] us) :
    ∃ l' r', us = [l', r'] ∧ R l l' ∧ R r r' := by
  obtain ⟨l', _, hl, hrest, rfl⟩ := List.forall₂_cons_left_iff.mp h
  obtain ⟨r', rfl, hr⟩ := forall₂_one hrest
  exact ⟨l', r', rfl, hl, hr⟩

mutual

/-- The number of steps from the root to the deepest leaf. -/
def height : Tree β → Nat
  | node _ ts => heightBelow ts

/-- The height of a node over the trees. -/
def heightBelow : List (Tree β) → Nat
  | [] => 0
  | t :: ts => max (height t + 1) (heightBelow ts)

end

/-- The trees below are as high as the highest of them. -/
theorem heightBelow_le_iff {ts : List (Tree β)} {n : Nat} :
    heightBelow ts ≤ n ↔ ∀ t ∈ ts, t.height < n := by
  induction ts with
  | nil => simp [heightBelow]
  | cons t ts ih =>
      simp only [heightBelow, Nat.max_le, ih, List.mem_cons, forall_eq_or_imp]
      rfl

/-- A node is one higher than the trees below it. -/
theorem height_le_iff {l : β} {ts : List (Tree β)} {n : Nat} :
    (node l ts).height ≤ n ↔ ∀ t ∈ ts, t.height < n := by
  rw [height]
  exact heightBelow_le_iff

/-- A child is lower than its node. -/
theorem height_lt_of_child {t u : Tree β} (h : u ∈ t.children) : u.height < t.height := by
  cases t with
  | node l ts => exact height_le_iff.mp (Nat.le_refl _) u h

/-- **Induction on the height.**  What holds of a tree whenever it holds of all
lower trees holds of every tree. -/
@[elab_as_elim]
theorem height_induction {motive : Tree β → Prop}
    (lower : ∀ t, (∀ u, u.height < t.height → motive u) → motive t) (t : Tree β) : motive t :=
  lower t fun u _ => height_induction lower u
termination_by t.height

/-- Changing the labels keeps the height. -/
theorem height_map (f : β → γ) (t : Tree β) : (t.map f).height = t.height := by
  induction t with
  | node l ts ih =>
      rw [map_node]
      refine Nat.le_antisymm (height_le_iff.mpr fun u hu => ?_) (height_le_iff.mpr fun t ht => ?_)
      · obtain ⟨t, ht, rfl⟩ := List.mem_map.mp hu
        rw [ih t ht]
        exact height_lt_of_child ht
      · rw [← ih t ht]
        exact height_lt_of_child (List.mem_map_of_mem ht)

/-- A path down a tree meets no more nodes than the tree has. -/
theorem height_lt_size (t : Tree β) : t.height < t.preorder.length := by
  induction t with
  | node l ts ih =>
      rw [preorder_node, List.length_cons, Nat.lt_succ_iff, height_le_iff]
      intro t ht
      refine Nat.lt_of_lt_of_le (ih t ht) ?_
      have hsub : t.preorder.Sublist (ts.flatMap preorder) :=
        List.sublist_flatten_of_mem (List.mem_map_of_mem ht)
      exact hsub.length_le

end FilterQuery.Tree
