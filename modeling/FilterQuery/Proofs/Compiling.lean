import FilterQuery.Plan.Compilation
import FilterQuery.Proofs.Layout
import FilterQuery.Proofs.Runs

/-!
# Compiling trees

What a tree compiles to depends on what its nodes say, not on their indices and
links, so that trees of contents can be compiled.  A tree that compiles without
an error has the shape of a condition or of a plan at its root; what else
compiles gives no condition and no plan, but an error.
-/

namespace FilterQuery

open FilterQuery.Graph

variable {α : Type}

/-- The content at a place of its own. -/
def Graph.Content.place (c : Content) : Place := ⟨0, { kind := c.kind, token := c.token }⟩

namespace Engine

variable (engine : Engine α)

/-- The condition that a tree of contents states. -/
def conditionOf (t : Tree Content) : Compiled (Condition α) :=
  engine.compileCondition (t.map Content.place)

/-- The plan that a tree of contents states. -/
def planOf (t : Tree Content) : Compiled (Plan α) :=
  engine.compilePlan (t.map Content.place)

section Shapes

variable {engine} (token : Token)

/-- An `and` holds where both operands do. -/
theorem conditionOf_and (l r : Tree Content) :
    engine.conditionOf (.node ⟨.and, token⟩ [l, r]) =
      do return .both (← engine.conditionOf l) (← engine.conditionOf r) := rfl

/-- An `or` holds where one of the operands does. -/
theorem conditionOf_or (l r : Tree Content) :
    engine.conditionOf (.node ⟨.or, token⟩ [l, r]) =
      do return .either (← engine.conditionOf l) (← engine.conditionOf r) := rfl

/-- A `not` holds where its operand does not. -/
theorem conditionOf_not (t : Tree Content) :
    engine.conditionOf (.node ⟨.not, token⟩ [t]) =
      do return .negation (← engine.conditionOf t) := rfl

theorem conditionOf_filter (f : FilterExpression) :
    engine.conditionOf (.leaf ⟨.filter f, token⟩) = engine.compileFilter f token := rfl

/-- A filter with a nested query compiles with the plan of that. -/
theorem conditionOf_nestedFilter (f : FilterExpression) (source : Tree Content) :
    engine.conditionOf (.node ⟨.nestedFilter f, token⟩ [source]) =
      engine.compileNestedFilter f token (engine.planOf source) := rfl

theorem planOf_select (t : Tree Content) :
    engine.planOf (.node ⟨.select, token⟩ [t]) = do return .select (← engine.conditionOf t) := rfl

/-- An intersection compiles to one of its operands. -/
theorem planOf_intersection (l r : Tree Content) :
    engine.planOf (.node ⟨.intersection, token⟩ [l, r]) =
      do return .intersection (← engine.planOf l) (← engine.planOf r) := rfl

/-- A union compiles to one of its operands. -/
theorem planOf_union (l r : Tree Content) :
    engine.planOf (.node ⟨.union, token⟩ [l, r]) =
      do return .union (← engine.planOf l) (← engine.planOf r) := rfl

/-- An aggregator compiles with its source, if it is known. -/
theorem planOf_aggregator (name : String) (source : Tree Content) :
    engine.planOf (.node ⟨.aggregator name, token⟩ [source]) =
      match engine.aggregators.find? name with
      | none => failing (.unknownAggregator name) token .nothing
      | some a => do return .aggregate a (← engine.planOf source) := rfl

end Shapes

/-- Operands as a node that compiles to a condition has them. -/
inductive IsConditionNode {β : Type} : NodeKind → List β → Prop where
  | and (l r : β) : IsConditionNode .and [l, r]
  | or (l r : β) : IsConditionNode .or [l, r]
  | not (t : β) : IsConditionNode .not [t]
  | filter (f : FilterExpression) : IsConditionNode (.filter f) []
  | nestedFilter (f : FilterExpression) (source : β) : IsConditionNode (.nestedFilter f) [source]
  | search (word : SearchExpression) : IsConditionNode (.search word) []

/-- Operands as a node that compiles to a plan has them. -/
inductive IsPlanNode {β : Type} : NodeKind → List β → Prop where
  | select (t : β) : IsPlanNode .select [t]
  | intersection (l r : β) : IsPlanNode .intersection [l, r]
  | union (l r : β) : IsPlanNode .union [l, r]
  | nestedQuery (q : NestedExpression) : IsPlanNode (.nestedQuery q) []
  | aggregator (name : String) (source : β) : IsPlanNode (.aggregator name) [source]

/-- Changing the operands keeps the shape of a condition. -/
theorem IsConditionNode.of_map {β γ : Type} {f : β → γ} {kind : NodeKind} {ts : List β}
    (h : IsConditionNode kind (ts.map f)) : IsConditionNode kind ts := by
  generalize hus : ts.map f = us at h
  cases h with
  | and l r =>
      obtain ⟨a, b, rfl⟩ := Tree.map_eq_pair hus
      exact .and a b
  | or l r =>
      obtain ⟨a, b, rfl⟩ := Tree.map_eq_pair hus
      exact .or a b
  | not t =>
      obtain ⟨a, rfl⟩ := Tree.map_eq_one hus
      exact .not a
  | filter g =>
      obtain rfl := List.map_eq_nil_iff.mp hus
      exact .filter g
  | nestedFilter g source =>
      obtain ⟨a, rfl⟩ := Tree.map_eq_one hus
      exact .nestedFilter g a
  | search word =>
      obtain rfl := List.map_eq_nil_iff.mp hus
      exact .search word

/-- Changing the operands keeps the shape of a plan. -/
theorem IsPlanNode.of_map {β γ : Type} {f : β → γ} {kind : NodeKind} {ts : List β}
    (h : IsPlanNode kind (ts.map f)) : IsPlanNode kind ts := by
  generalize hus : ts.map f = us at h
  cases h with
  | select t =>
      obtain ⟨a, rfl⟩ := Tree.map_eq_one hus
      exact .select a
  | intersection l r =>
      obtain ⟨a, b, rfl⟩ := Tree.map_eq_pair hus
      exact .intersection a b
  | union l r =>
      obtain ⟨a, b, rfl⟩ := Tree.map_eq_pair hus
      exact .union a b
  | nestedQuery q =>
      obtain rfl := List.map_eq_nil_iff.mp hus
      exact .nestedQuery q
  | aggregator name source =>
      obtain ⟨a, rfl⟩ := Tree.map_eq_one hus
      exact .aggregator name a

/-- A node with other operands cannot be compiled to a condition. -/
def notCondition (kind : NodeKind) (token : Token) : Compiled (Condition α) :=
  if kind.isSetOperand then failing .nestedQueryAsCondition token .never
  else failing (.notACondition kind) token .never

variable {engine}

/-- A node of another shape is reported and gives no condition. -/
theorem compileCondition_eq_notCondition {p : Place} {ts : List (Tree Place)}
    (h : ¬ IsConditionNode p.kind ts) :
    engine.compileCondition (.node p ts) = notCondition p.kind p.token := by
  obtain ⟨id, node⟩ := p
  have hkind : (⟨id, node⟩ : Place).kind = node.kind := rfl
  rw [hkind] at h ⊢
  rw [compileCondition]
  · rfl
  · rintro l r hk rfl
    exact h (hk ▸ IsConditionNode.and l r)
  · rintro l r hk rfl
    exact h (hk ▸ IsConditionNode.or l r)
  · rintro t hk rfl
    exact h (hk ▸ IsConditionNode.not t)
  · rintro f hk rfl
    exact h (hk ▸ IsConditionNode.filter f)
  · rintro f source hk rfl
    exact h (hk ▸ IsConditionNode.nestedFilter f source)
  · rintro word hk rfl
    exact h (hk ▸ IsConditionNode.search word)

/-- A node of another shape is reported and gives no plan. -/
theorem compilePlan_eq_failing {p : Place} {ts : List (Tree Place)}
    (h : ¬ IsPlanNode p.kind ts) :
    engine.compilePlan (.node p ts) = failing (.notEnumerable p.kind) p.token .nothing := by
  obtain ⟨id, node⟩ := p
  have hkind : (⟨id, node⟩ : Place).kind = node.kind := rfl
  rw [hkind] at h ⊢
  rw [compilePlan]
  · rfl
  · rintro t hk rfl
    exact h (hk ▸ IsPlanNode.select t)
  · rintro l r hk rfl
    exact h (hk ▸ IsPlanNode.intersection l r)
  · rintro l r hk rfl
    exact h (hk ▸ IsPlanNode.union l r)
  · rintro q hk rfl
    exact h (hk ▸ IsPlanNode.nestedQuery q)
  · rintro name source hk rfl
    exact h (hk ▸ IsPlanNode.aggregator name source)

/-- Contents of another shape give no condition. -/
theorem conditionOf_eq_notCondition {c : Content} {ts : List (Tree Content)}
    (h : ¬ IsConditionNode c.kind ts) :
    engine.conditionOf (.node c ts) = notCondition c.kind c.token := by
  have hplaces : ¬ IsConditionNode c.place.kind (ts.map (Tree.map Content.place)) :=
    fun hmap => h hmap.of_map
  rw [conditionOf, Tree.map_node, compileCondition_eq_notCondition hplaces]
  rfl

/-- Contents of another shape give no plan. -/
theorem planOf_eq_failing {c : Content} {ts : List (Tree Content)}
    (h : ¬ IsPlanNode c.kind ts) :
    engine.planOf (.node c ts) = failing (.notEnumerable c.kind) c.token .nothing := by
  have hplaces : ¬ IsPlanNode c.place.kind (ts.map (Tree.map Content.place)) :=
    fun hmap => h hmap.of_map
  rw [planOf, Tree.map_node, compilePlan_eq_failing hplaces]
  rfl

/-- What compiles to a condition without an error has the shape of one. -/
theorem isConditionNode_of_clean {c : Content} {ts : List (Tree Content)}
    (h : (engine.conditionOf (.node c ts)).notes = []) : IsConditionNode c.kind ts := by
  by_contra hshape
  rw [conditionOf_eq_notCondition hshape, notCondition] at h
  split at h <;> cases h

/-- What compiles to a plan without an error has the shape of one. -/
theorem isPlanNode_of_clean {c : Content} {ts : List (Tree Content)}
    (h : (engine.planOf (.node c ts)).notes = []) : IsPlanNode c.kind ts := by
  by_contra hshape
  rw [planOf_eq_failing hshape] at h
  cases h

/-- A relation between what two engines compile that is kept by each way in
which a node is compiled, provided that its token satisfies `P`. -/
structure KeepsCompiling (P : Token → Prop) (engine engine' : Engine α)
    (Rel : ∀ β : Type, Compiled β → Compiled β → Prop) : Prop where
  one : ∀ {β γ : Type} (g : β → γ) {x x' : Compiled β}, Rel _ x x' →
    Rel _ (do return g (← x)) (do return g (← x'))
  pair : ∀ {β γ : Type} (g : β → β → γ) {x x' y y' : Compiled β}, Rel _ x x' → Rel _ y y' →
    Rel _ (do return g (← x) (← y)) (do return g (← x') (← y'))
  failing : ∀ {β : Type} (cause : Cause) (stub : β) {token : Token}, P token →
    Rel _ (failing cause token stub) (failing cause token stub)
  filter : ∀ (f : FilterExpression) {token : Token}, P token →
    Rel _ (engine.compileFilter f token) (engine'.compileFilter f token)
  nestedFilter : ∀ (f : FilterExpression) {token : Token} {source source' : Compiled (Plan α)},
    P token → Rel _ source source' →
    Rel _ (engine.compileNestedFilter f token source)
      (engine'.compileNestedFilter f token source')
  search : ∀ (word : SearchExpression) {token : Token}, P token →
    Rel _ (engine.compileSearch word token) (engine'.compileSearch word token)
  nestedQuery : ∀ (q : NestedExpression) {token : Token}, P token →
    Rel _ (engine.compileNested q token) (engine'.compileNested q token)
  aggregators : engine.aggregators = engine'.aggregators

namespace KeepsCompiling

variable {P : Token → Prop} {engine engine' : Engine α}
  {Rel : ∀ β : Type, Compiled β → Compiled β → Prop}

/-- What one engine makes of a tree is related to what the other makes of its
contents, as a condition and as a plan. -/
def Relates (engine engine' : Engine α) (Rel : ∀ β : Type, Compiled β → Compiled β → Prop)
    (t : Tree Place) : Prop :=
  Rel _ (engine.compileCondition t) (engine'.conditionOf (t.map Place.content)) ∧
    Rel _ (engine.compilePlan t) (engine'.planOf (t.map Place.content))

/-- A node keeps the relation as a condition if its operands do. -/
theorem condition_node (h : KeepsCompiling P engine engine' Rel) {p : Place}
    {ts : List (Tree Place)} (hp : P p.token) (hts : ∀ t ∈ ts, Relates engine engine' Rel t) :
    Rel _ (engine.compileCondition (.node p ts))
      (engine'.conditionOf ((Tree.node p ts).map Place.content)) := by
  obtain ⟨id, ⟨kind, token, children, parent, skipped⟩⟩ := p
  let place : Place := ⟨id, ⟨kind, token, children, parent, skipped⟩⟩
  by_cases hshape : IsConditionNode kind ts
  · cases hshape with
    | and l r => exact h.pair Condition.both (hts l (by simp)).1 (hts r (by simp)).1
    | or l r => exact h.pair Condition.either (hts l (by simp)).1 (hts r (by simp)).1
    | not t => exact h.one Condition.negation (hts t (by simp)).1
    | filter f => exact h.filter f hp
    | nestedFilter f source => exact h.nestedFilter f hp (hts source (by simp)).2
    | search word => exact h.search word hp
  · -- Both engines report the node, with what its kind says.
    have hplace : ¬ IsConditionNode place.kind ts := hshape
    have hcontents : ¬ IsConditionNode place.content.kind
        (ts.map (Tree.map Place.content)) :=
      fun hmap => hshape hmap.of_map
    rw [Tree.map_node, compileCondition_eq_notCondition hplace,
      conditionOf_eq_notCondition hcontents]
    have hkind : place.content.kind = place.kind := rfl
    rw [hkind]
    unfold notCondition
    split
    · exact h.failing _ _ hp
    · exact h.failing _ _ hp

/-- A node keeps the relation as a plan if its operands do. -/
theorem plan_node (h : KeepsCompiling P engine engine' Rel) {p : Place} {ts : List (Tree Place)}
    (hp : P p.token) (hts : ∀ t ∈ ts, Relates engine engine' Rel t) :
    Rel _ (engine.compilePlan (.node p ts))
      (engine'.planOf ((Tree.node p ts).map Place.content)) := by
  obtain ⟨id, ⟨kind, token, children, parent, skipped⟩⟩ := p
  let place : Place := ⟨id, ⟨kind, token, children, parent, skipped⟩⟩
  by_cases hshape : IsPlanNode kind ts
  · cases hshape with
    | select t => exact h.one Plan.select (hts t (by simp)).1
    | intersection l r => exact h.pair Plan.intersection (hts l (by simp)).2 (hts r (by simp)).2
    | union l r => exact h.pair Plan.union (hts l (by simp)).2 (hts r (by simp)).2
    | nestedQuery q => exact h.nestedQuery q hp
    | aggregator name source =>
        rw [Tree.map_node, List.map_singleton]
        refine (congrArg (Rel _ _) (planOf_aggregator token name _)).mpr ?_
        simp only [compilePlan, h.aggregators]
        cases engine'.aggregators.find? name with
        | none => exact h.failing _ _ hp
        | some a => exact h.one (Plan.aggregate a) (hts source (by simp)).2
  · have hplace : ¬ IsPlanNode place.kind ts := hshape
    have hcontents : ¬ IsPlanNode place.content.kind
        (ts.map (Tree.map Place.content)) :=
      fun hmap => hshape hmap.of_map
    rw [Tree.map_node, compilePlan_eq_failing hplace, planOf_eq_failing hcontents]
    exact h.failing _ _ hp

/-- **What every node keeps, trees keep.** -/
theorem places (h : KeepsCompiling P engine engine' Rel) (t : Tree Place)
    (ht : ∀ p ∈ t.preorder, P p.token) : Relates engine engine' Rel t := by
  induction t with
  | node p ts ih =>
      rw [Tree.preorder_node, List.forall_mem_cons] at ht
      have hts : ∀ t ∈ ts, Relates engine engine' Rel t := fun t hmem =>
        ih t hmem fun q hq => ht.2 q (List.mem_flatMap.mpr ⟨t, hmem, hq⟩)
      exact ⟨h.condition_node ht.1 hts, h.plan_node ht.1 hts⟩

/-- The like for trees of contents. -/
theorem contents (h : KeepsCompiling P engine engine' Rel) (t : Tree Content)
    (ht : ∀ c ∈ t.preorder, P c.token) :
    Rel _ (engine.conditionOf t) (engine'.conditionOf t) ∧
      Rel _ (engine.planOf t) (engine'.planOf t) := by
  have hback : (t.map Content.place).map Place.content = t := by
    rw [Tree.map_map]
    exact t.map_id
  have hplaces : ∀ p ∈ (t.map Content.place).preorder, P p.token := by
    intro p hp
    rw [Tree.preorder_map] at hp
    obtain ⟨c, hc, rfl⟩ := List.mem_map.mp hp
    exact ht c hc
  have hrelates := h.places (t.map Content.place) hplaces
  rwa [Relates, hback] at hrelates

/-- Engines compile trees to the same if they compile each node to the same. -/
theorem of_eq (hfilter : engine.compileFilter = engine'.compileFilter)
    (hnestedFilter : engine.compileNestedFilter = engine'.compileNestedFilter)
    (hsearch : engine.compileSearch = engine'.compileSearch)
    (hnestedQuery : engine.compileNested = engine'.compileNested)
    (haggregators : engine.aggregators = engine'.aggregators) :
    KeepsCompiling (fun _ => True) engine engine' fun _ => Eq where
  one := fun _ _ _ h => h ▸ rfl
  pair := fun _ _ _ _ _ h h' => h ▸ h' ▸ rfl
  failing := fun _ _ _ _ => rfl
  filter := fun _ _ _ => hfilter ▸ rfl
  nestedFilter := fun _ _ _ _ _ h => hnestedFilter ▸ h ▸ rfl
  search := fun _ _ _ => hsearch ▸ rfl
  nestedQuery := fun _ _ _ => hnestedQuery ▸ rfl
  aggregators := haggregators

end KeepsCompiling

/-- **What a tree compiles to depends on its contents alone.** -/
theorem compile_eq (t : Tree Place) :
    engine.compileCondition t = engine.conditionOf (t.map Place.content) ∧
      engine.compilePlan t = engine.planOf (t.map Place.content) := by
  have hkeeps : KeepsCompiling (fun _ => True) engine engine fun _ => Eq :=
    .of_eq rfl rfl rfl rfl rfl
  exact hkeeps.places t fun _ _ => trivial

end Engine

end FilterQuery
