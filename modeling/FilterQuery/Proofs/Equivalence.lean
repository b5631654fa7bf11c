import FilterQuery.Proofs.Compiling

/-!
# Trees that mean the same

A tree may stand for another if it compiles whenever the other does, and what it
compiles to holds of the same elements, yields the same slots and passes the
same test.  A node may stand for another of the same content if the trees below
it may, one by one; so a rewriting of trees keeps their meaning if each of its
steps does.
-/

namespace FilterQuery

open FilterQuery.Graph

variable {α : Type} [BEq α]

section Values

variable (a b : Condition α) (e : α)

/-- Both conditions hold where each of them does. -/
theorem Condition.both_value :
    ((both a b).holds e).value = ((a.holds e).value && (b.holds e).value) := by
  rw [holds, Noted.value_bind]
  cases (a.holds e).value <;> rfl

/-- Either condition holds where one of them does. -/
theorem Condition.either_value :
    ((either a b).holds e).value = ((a.holds e).value || (b.holds e).value) := by
  rw [holds, Noted.value_bind]
  cases (a.holds e).value <;> rfl

/-- A negation holds where the condition does not. -/
theorem Condition.negation_value : ((negation a).holds e).value = !(a.holds e).value := by
  rw [holds, Noted.value_bind, Noted.value_pure]

/-- A filter over a nested query compares its value with those of the elements
found. -/
theorem Condition.compareNested_value (reading : Reading α) (handler : Handler)
    (comparison : StringComparison) (transform : α → Option Value) (source : Plan α) :
    ((compareNested reading handler comparison transform source).holds e).value =
      match (reading.value e).value with
      | none => false
      | some l => (source.run .strict []).elements.any fun found =>
          match transform found with
          | none => false
          | some r => handler.holds l r comparison := by
  rw [holds, Noted.value_bind]
  cases (reading.value e).value with
  | none => rfl
  | some l =>
      refine (Run.search_value _ _).trans (congrArg _ (funext fun found => ?_))
      cases transform found <;> rfl

/-- A filter that decides by itself is asked about each of the elements
found. -/
theorem Condition.decideNested_value (decision : Decision α) (transform : α → Option Value)
    (source : Plan α) :
    ((decideNested decision transform source).holds e).value =
      (source.run .strict []).elements.any fun found =>
        match transform found with
        | none => false
        | some r => (decision.holds e r).value := by
  rw [holds, Run.search_value]
  refine congrArg _ (funext fun found => ?_)
  cases transform found <;> rfl

/-- The slot of an element that a selection looks at. -/
def Plan.selected (mode : Mode) (e : α) (holds : Bool) : List (Option α) :=
  match mode, holds with
  | _, true => [some e]
  | .strict, false => []
  | .fast, false => [none]

/-- A selection answers for each element of the payload in turn. -/
theorem Plan.select_slots (c : Condition α) (mode : Mode) (payload : List α) :
    ((select c).run mode payload).slots =
      payload.flatMap fun e => selected mode e (c.holds e).value := by
  rw [run]
  induction payload with
  | nil => rfl
  | cons e payload ih =>
      rw [List.flatMap_cons, List.flatMap_cons, Run.slots_append, ih]
      congr 1
      rw [Run.slots_append, Run.slots_ofCalls, List.nil_append]
      cases mode <;> cases (c.holds e).value <;> rfl

/-- A selection yields the elements that meet its condition, in either mode. -/
theorem Plan.select_elements (c : Condition α) (mode : Mode) (payload : List α) :
    ((select c).run mode payload).elements = payload.filter fun e => (c.holds e).value := by
  rw [Run.elements_eq, select_slots]
  induction payload with
  | nil => rfl
  | cons e payload ih =>
      have hselected : (selected mode e (c.holds e).value).filterMap id =
          if (c.holds e).value then [e] else [] := by
        cases mode <;> cases (c.holds e).value <;> rfl
      rw [List.flatMap_cons, List.filterMap_append, ih, hselected, List.filter_cons]
      split
      · rfl
      · rfl

/-- Fast evaluation of a selection yields one slot for each element. -/
theorem Plan.select_fast_slots (c : Condition α) (payload : List α) :
    ((select c).run .fast payload).slots =
      payload.map fun e => if (c.holds e).value then some e else none := by
  rw [select_slots]
  induction payload with
  | nil => rfl
  | cons e payload ih =>
      have hselected : selected .fast e (c.holds e).value =
          [if (c.holds e).value then some e else none] := by
        cases (c.holds e).value <;> rfl
      rw [List.flatMap_cons, ih, hselected, List.map_cons, List.singleton_append]

/-- An aggregator answers with what it makes of the elements, and with no
gaps. -/
theorem Plan.aggregate_slots (a : Aggregator α) (source : Plan α) (mode : Mode) (payload : List α) :
    ((aggregate a source).run mode payload).slots =
      (a.reduce (source.run mode []).elements).map some := by
  rw [run, Run.slots_append, Run.slots_ofCalls, List.nil_append]
  exact Run.slots_ofElements _

/-- Strict evaluation leaves no slot empty. -/
theorem Plan.strict_slots (p : Plan α) (payload : List α) :
    (p.run .strict payload).slots = (p.run .strict payload).elements.map some := by
  have hsome : ∃ es : List α, (p.run .strict payload).slots = es.map some := by
    cases p with
    | select c =>
        refine ⟨payload.filter fun e => (c.holds e).value, ?_⟩
        rw [select_slots]
        induction payload with
        | nil => rfl
        | cons e payload ih =>
            rw [List.flatMap_cons, ih, List.filter_cons]
            cases (c.holds e).value <;> rfl
    | nothing => exact ⟨[], rfl⟩
    | nested query filter handler => exact ⟨_, Run.slots_ofElements _⟩
    | aggregate a source => exact ⟨_, aggregate_slots a source .strict payload⟩
    | intersection a b => exact ⟨_, Run.intersection_slots _ _⟩
    | union a b => exact ⟨_, Run.union_slots _ _⟩
  obtain ⟨es, hes⟩ := hsome
  rw [hes, Run.elements_of_slots hes]

/-- A plan that is no selection is tested by its strict run. -/
theorem Plan.yields_value {p : Plan α} (h : ∀ c, p ≠ .select c) (e : α) :
    (p.yields e).value = (p.run .strict []).elements.any (· == e) := by
  cases p with
  | select c => exact absurd rfl (h c)
  | _ => exact Run.search_value _ _

end Values

/-- The conditions hold of the same elements. -/
def Condition.Agrees (c c' : Condition α) : Prop := ∀ e, (c'.holds e).value = (c.holds e).value

/-- Conditions that are the same agree. -/
theorem Condition.Agrees.of_eq {c c' : Condition α} (h : c = c') : c.Agrees c' :=
  fun _ => by rw [h]

/-- The plans yield the same slots and pass the same test. -/
structure Plan.Agrees (p p' : Plan α) : Prop where
  slots : ∀ mode payload, (p'.run mode payload).slots = (p.run mode payload).slots
  yields : ∀ e, (p'.yields e).value = (p.yields e).value

theorem Plan.Agrees.refl (p : Plan α) : p.Agrees p := ⟨fun _ _ => rfl, fun _ => rfl⟩

/-- Plans that agree yield the same elements. -/
theorem Plan.Agrees.elements {p p' : Plan α} (h : p.Agrees p') (mode : Mode) (payload : List α) :
    (p'.run mode payload).elements = (p.run mode payload).elements := by
  rw [Run.elements_eq, h.slots]
  rfl

/-- Plans that are no selections agree if their slots do. -/
theorem Plan.Agrees.of_slots {p p' : Plan α} (hp : ∀ c, p ≠ .select c) (hp' : ∀ c, p' ≠ .select c)
    (h : ∀ mode payload, (p'.run mode payload).slots = (p.run mode payload).slots) :
    p.Agrees p' where
  slots := h
  yields e := by
    rw [yields_value hp, yields_value hp', Run.elements_eq, h]
    rfl

/-- What compiles without an error may be put in place of what does. -/
def Compiles {β : Type} (agrees : β → β → Prop) (x y : Engine.Compiled β) : Prop :=
  x.notes = [] → y.notes = [] ∧ agrees x.value y.value

namespace Compiles

variable {β γ : Type} {agrees : β → β → Prop} {agrees' : γ → γ → Prop}

/-- What stands for something in one way stands for it in each weaker way. -/
theorem imp {agrees' : β → β → Prop} {x y : Engine.Compiled β} (h : Compiles agrees x y)
    (himp : ∀ a a', agrees a a' → agrees' a a') : Compiles agrees' x y :=
  fun hclean => (h hclean).imp_right (himp _ _)

theorem pure {a a' : β} (h : agrees a a') :
    Compiles agrees (Pure.pure a : Engine.Compiled β) (Pure.pure a') := fun _ => ⟨rfl, h⟩

/-- Steps that agree, one behind the other. -/
theorem bind {x x' : Engine.Compiled β} {next next' : β → Engine.Compiled γ}
    (hx : Compiles agrees x x')
    (hnext : ∀ a a', agrees a a' → Compiles agrees' (next a) (next' a')) :
    Compiles agrees' (x >>= next) (x' >>= next') := by
  intro hclean
  rw [Noted.notes_bind, List.append_eq_nil_iff] at hclean
  obtain ⟨hx', hvalue⟩ := hx hclean.1
  obtain ⟨hnext', hagrees⟩ := hnext _ _ hvalue hclean.2
  rw [Noted.notes_bind, Noted.value_bind, Noted.value_bind]
  exact ⟨by rw [hx', hnext']; rfl, hagrees⟩

/-- One operand under an operation that agrees if it does. -/
theorem one {combine : β → γ} {x x' : Engine.Compiled β} (hx : Compiles agrees x x')
    (hcombine : ∀ a a', agrees a a' → agrees' (combine a) (combine a')) :
    Compiles agrees' (do return combine (← x)) (do return combine (← x')) :=
  hx.bind fun a a' ha => .pure (hcombine a a' ha)

/-- Two operands under a combination that agrees if they do. -/
theorem pair {combine : β → β → γ} {x x' y y' : Engine.Compiled β} (hx : Compiles agrees x x')
    (hy : Compiles agrees y y')
    (hcombine : ∀ a a' b b', agrees a a' → agrees b b' → agrees' (combine a b) (combine a' b')) :
    Compiles agrees' (do return combine (← x) (← y)) (do return combine (← x') (← y')) :=
  hx.bind fun a a' ha => hy.bind fun b b' hb => .pure (hcombine a a' b b' ha hb)

end Compiles

/-- A tree may stand for another, as a condition and as a plan. -/
structure StandsFor (engine : Engine α) (t t' : Tree Content) : Prop where
  condition : Compiles Condition.Agrees (engine.conditionOf t) (engine.conditionOf t')
  plan : Compiles Plan.Agrees (engine.planOf t) (engine.planOf t')

namespace StandsFor

variable {engine : Engine α} {t t' t'' : Tree Content}

theorem refl (t : Tree Content) : StandsFor engine t t :=
  ⟨fun h => ⟨h, .of_eq rfl⟩, fun h => ⟨h, .refl _⟩⟩

/-- What stands for something stands for all that this stands for. -/
theorem trans (h : StandsFor engine t t') (h' : StandsFor engine t' t'') :
    StandsFor engine t t'' := by
  constructor
  · intro hclean
    obtain ⟨hclean', hsame⟩ := h.condition hclean
    obtain ⟨hclean'', hsame'⟩ := h'.condition hclean'
    exact ⟨hclean'', fun e => (hsame' e).trans (hsame e)⟩
  · intro hclean
    obtain ⟨hclean', hsame⟩ := h.plan hclean
    obtain ⟨hclean'', hsame'⟩ := h'.plan hclean'
    refine ⟨hclean'', fun mode payload => ?_, fun e => ?_⟩
    · rw [hsame'.slots, hsame.slots]
    · rw [hsame'.yields, hsame.yields]

end StandsFor

section Congruence

/-- Selections by conditions that agree do. -/
theorem Plan.Agrees.select {c c' : Condition α} (h : c.Agrees c') :
    (Plan.select c).Agrees (Plan.select c') where
  slots mode payload := by
    rw [select_slots, select_slots]
    exact List.flatMap_congr fun e _ => by rw [h e]
  yields e := h e

/-- Intersections of plans that agree do. -/
theorem Plan.Agrees.intersection {a a' b b' : Plan α} (ha : a.Agrees a') (hb : b.Agrees b') :
    (Plan.intersection a b).Agrees (Plan.intersection a' b') := by
  refine .of_slots (by simp) (by simp) fun mode payload => ?_
  cases mode with
  | strict =>
      rw [run, run, Run.intersection_slots, Run.intersection_slots, ha.elements, hb.elements]
  | fast => rw [run, run, Run.merge_slots, Run.merge_slots, ha.slots, hb.slots]

/-- Unions of plans that agree do. -/
theorem Plan.Agrees.union {a a' b b' : Plan α} (ha : a.Agrees a') (hb : b.Agrees b') :
    (Plan.union a b).Agrees (Plan.union a' b') := by
  refine .of_slots (by simp) (by simp) fun mode payload => ?_
  cases mode with
  | strict => rw [run, run, Run.union_slots, Run.union_slots, ha.elements, hb.elements]
  | fast => rw [run, run, Run.merge_slots, Run.merge_slots, ha.slots, hb.slots]

/-- One aggregator over plans that agree gives plans that do. -/
theorem Plan.Agrees.aggregate {p p' : Plan α} (a : Aggregator α) (h : p.Agrees p') :
    (Plan.aggregate a p).Agrees (Plan.aggregate a p') := by
  refine .of_slots (by simp) (by simp) fun mode payload => ?_
  rw [aggregate_slots, aggregate_slots, h.elements]

/-- Comparisons with plans that agree do. -/
theorem Condition.Agrees.compareNested (reading : Reading α) (handler : Handler)
    (comparison : StringComparison) (transform : α → Option Value) {p p' : Plan α}
    (h : p.Agrees p') :
    (Condition.compareNested reading handler comparison transform p).Agrees
      (.compareNested reading handler comparison transform p') := by
  intro e
  rw [compareNested_value, compareNested_value, h.elements]

/-- Decisions over plans that agree do. -/
theorem Condition.Agrees.decideNested (decision : Decision α) (transform : α → Option Value)
    {p p' : Plan α} (h : p.Agrees p') :
    (Condition.decideNested decision transform p).Agrees
      (.decideNested decision transform p') := by
  intro e
  rw [decideNested_value, decideNested_value, h.elements]

/-- Conjunctions of conditions that agree do. -/
theorem Condition.Agrees.both {a a' b b' : Condition α} (ha : a.Agrees a') (hb : b.Agrees b') :
    (Condition.both a b).Agrees (.both a' b') := by
  intro e
  rw [both_value, both_value, ha, hb]

/-- Disjunctions of conditions that agree do. -/
theorem Condition.Agrees.either {a a' b b' : Condition α} (ha : a.Agrees a') (hb : b.Agrees b') :
    (Condition.either a b).Agrees (.either a' b') := by
  intro e
  rw [either_value, either_value, ha, hb]

/-- Negations of conditions that agree do. -/
theorem Condition.Agrees.negation {a a' : Condition α} (ha : a.Agrees a') :
    (Condition.negation a).Agrees (.negation a') := by
  intro e
  rw [negation_value, negation_value, ha]

/-- A phrase is searched for like a word. -/
theorem Condition.Agrees.search (texts : α → List String)
    (matcher : Option (String → String → Bool)) (comparison : StringComparison)
    (word : SearchExpression) (phrase : Bool) :
    (Condition.search texts matcher comparison word).Agrees
      (.search texts matcher comparison { word with phrase }) := by
  intro e
  rw [holds, holds]
  rfl

/-- What evaluation looks at of a kind: not whether a word was quoted, and not
the text of a nested query in place of a value. -/
def NodeKind.gist : NodeKind → NodeKind
  | .search word => .search { word with phrase := false }
  | .nestedFilter f => .nestedFilter { f with value := "", quoted := false }
  | kind => kind

/-- What has the gist of a word is that word, perhaps as a phrase. -/
theorem NodeKind.eq_search_of_gist {kind : NodeKind} {word : SearchExpression}
    (h : kind.gist = (NodeKind.search word).gist) :
    ∃ phrase, kind = .search { word with phrase } := by
  cases kind with
  | search word' =>
      obtain ⟨htext, hexact⟩ : word'.text = word.text ∧ word'.exact = word.exact := by
        simpa [gist] using h
      exact ⟨word'.phrase, by rw [← htext, ← hexact]⟩
  | _ => cases h

/-- What has the gist of a filter is that filter, perhaps with another text of
its value. -/
theorem NodeKind.eq_nestedFilter_of_gist {kind : NodeKind} {f : FilterExpression}
    (h : kind.gist = (NodeKind.nestedFilter f).gist) :
    ∃ value quoted, kind = .nestedFilter { f with value, quoted } := by
  cases kind with
  | nestedFilter g =>
      obtain ⟨hname, hparam, hoperator⟩ :
          g.name = f.name ∧ g.param = f.param ∧ g.operator = f.operator := by
        simpa [gist] using h
      exact ⟨g.value, g.quoted, by rw [← hname, ← hparam, ← hoperator]⟩
  | _ => cases h

/-- Of all other kinds everything matters. -/
theorem NodeKind.eq_of_gist {kind kind' : NodeKind} (h : kind'.gist = kind.gist) :
    kind' = kind ∨ (∃ word, kind = .search word) ∨ ∃ f, kind = .nestedFilter f := by
  cases kind with
  | search word => exact .inr (.inl ⟨word, rfl⟩)
  | nestedFilter f => exact .inr (.inr ⟨f, rfl⟩)
  | _ => cases kind' <;> first | exact .inl h | cases h

namespace Engine

variable {engine : Engine α}

omit [BEq α] in
/-- The arguments of a filter do not depend on where it stands. -/
theorem arguments_token (found : FoundFilter α) (f : FilterExpression) (token token' : Token) :
    Compiles (· = ·) (engine.arguments found f token) (engine.arguments found f token') := by
  unfold arguments
  cases f.param with
  | none => exact fun h => ⟨h, rfl⟩
  | some text =>
      cases found.filter.parameter with
      | none =>
          intro h
          cases h
      | some parameter =>
          dsimp only
          split
          · exact fun h => ⟨h, rfl⟩
          · intro h
            cases h

omit [BEq α] in
/-- The handler of an operator does not depend on where it stands. -/
theorem handlerFor_token (filter : Filter α) (operator : Option Operator) (rhs : ValueType)
    (token token' : Token) (name : String) :
    Compiles (· = ·) (handlerFor filter operator rhs token name)
      (handlerFor filter operator rhs token' name) := by
  unfold handlerFor
  cases operator with
  | none =>
      intro h
      cases h
  | some op =>
      dsimp only
      split
      · exact fun h => ⟨h, rfl⟩
      · intro h
        cases h

omit [BEq α] in
/-- **What a filter compiles to does not depend on where it stands.** -/
theorem compileFilter_token (f : FilterExpression) (token token' : Token) :
    Compiles (· = ·) (engine.compileFilter f token) (engine.compileFilter f token') := by
  unfold compileFilter
  cases engine.findFilter? f.name with
  | none =>
      dsimp only
      split
      · exact fun h => ⟨h, rfl⟩
      · exact fun h => ⟨h, rfl⟩
  | some found =>
      refine (arguments_token found f token token').bind fun args _ hargs => ?_
      obtain rfl := hargs
      cases args with
      | none => exact fun h => ⟨h, rfl⟩
      | some args =>
          dsimp only
          split
          · intro h
            cases h
          · next rhs value _ =>
              cases found.filter.source with
              | decider decide => exact fun h => ⟨h, rfl⟩
              | reader read =>
                  refine (handlerFor_token _ _ rhs token token' _).bind fun handler _ hhandler => ?_
                  obtain rfl := hhandler
                  cases handler with
                  | none => exact fun h => ⟨h, rfl⟩
                  | some handler => exact fun h => ⟨h, rfl⟩

/-- It does not matter whether a word was quoted. -/
theorem compileSearch_agrees (word : SearchExpression) (phrase : Bool) (token token' : Token) :
    Compiles Condition.Agrees (engine.compileSearch word token)
      (engine.compileSearch { word with phrase } token') := by
  unfold compileSearch
  cases engine.searchTexts with
  | none =>
      intro h
      cases h
  | some texts => exact .pure (.search texts _ _ word phrase)

/-- A filter with another source that yields the same elements, whatever the
text of the source. -/
theorem compileNestedFilter_agrees (f : FilterExpression) (value : String) (quoted : Bool)
    (token token' : Token) {source source' : Compiled (Plan α)}
    (h : Compiles Plan.Agrees source source') :
    Compiles Condition.Agrees (engine.compileNestedFilter f token source)
      (engine.compileNestedFilter { f with value, quoted } token' source') := by
  have hvalue : engine.compileNestedFilter { f with value, quoted } token' source' =
      engine.compileNestedFilter f token' source' := rfl
  rw [hvalue]
  unfold compileNestedFilter
  cases engine.findFilter? f.name with
  | none => exact fun _ => ⟨rfl, fun _ => rfl⟩
  | some found =>
      dsimp only
      cases found.filter.nested with
      | none =>
          intro hclean
          cases hclean
      | some transform =>
          refine (arguments_token found f token token').bind fun args _ hargs => ?_
          obtain rfl := hargs
          cases args with
          | none => exact fun hclean => ⟨hclean, fun _ => rfl⟩
          | some args =>
              refine h.bind fun p p' hagrees => ?_
              cases found.filter.source with
              | decider decide => exact .pure (.decideNested _ _ hagrees)
              | reader read =>
                  dsimp only
                  cases (engine.operators.find? f.operator).bind
                      (·.resolve? found.filter.type transform.type) with
                  | none =>
                      intro hclean
                      cases hclean
                  | some handler => exact .pure (.compareNested _ _ _ _ hagrees)

end Engine

/-- The engines know the same, but may resolve nested queries in different
ways. -/
def Engine.SameButNested (engine engine' : Engine α) : Prop :=
  ∃ handler, engine' = { engine with nestedHandler := handler }

/-- What one engine makes of a tree may be put in place of what the other makes
of another. -/
structure StandsAcross (engine engine' : Engine α) (t t' : Tree Content) : Prop where
  condition : Compiles Condition.Agrees (engine.conditionOf t) (engine'.conditionOf t')
  plan : Compiles Plan.Agrees (engine.planOf t) (engine'.planOf t')

namespace StandsAcross

variable {engine engine' : Engine α} {c c' : Content} {ts ts' : List (Tree Content)}
  (hengine : engine.SameButNested engine') (hkind : c'.kind.gist = c.kind.gist)
  (h : List.Forall₂ (StandsAcross engine engine') ts ts')
include hengine hkind h

/-- Nodes of one gist over operands that stand for each other compile to
conditions that agree. -/
theorem node_condition : Compiles Condition.Agrees (engine.conditionOf (.node c ts))
    (engine'.conditionOf (.node c' ts')) := by
  intro hclean
  have hshape := Engine.isConditionNode_of_clean hclean
  revert hclean
  obtain ⟨kind, token⟩ := c
  obtain ⟨kind', token'⟩ := c'
  dsimp only at hkind hshape
  obtain ⟨handler, rfl⟩ := hengine
  cases hshape with
  | and l r =>
      obtain rfl := (NodeKind.eq_of_gist hkind).resolve_right (by simp)
      obtain ⟨l', r', rfl, hl, hr⟩ := Tree.forall₂_pair h
      exact hl.condition.pair hr.condition fun _ _ _ _ => .both
  | or l r =>
      obtain rfl := (NodeKind.eq_of_gist hkind).resolve_right (by simp)
      obtain ⟨l', r', rfl, hl, hr⟩ := Tree.forall₂_pair h
      exact hl.condition.pair hr.condition fun _ _ _ _ => .either
  | not t =>
      obtain rfl := (NodeKind.eq_of_gist hkind).resolve_right (by simp)
      obtain ⟨t', rfl, ht⟩ := Tree.forall₂_one h
      exact ht.condition.one fun _ _ => .negation
  | nestedFilter f source =>
      obtain ⟨value, quoted, rfl⟩ := NodeKind.eq_nestedFilter_of_gist hkind
      obtain ⟨source', rfl, hsource⟩ := Tree.forall₂_one h
      exact Engine.compileNestedFilter_agrees f value quoted token token' hsource.plan
  | filter f =>
      obtain rfl := (NodeKind.eq_of_gist hkind).resolve_right (by simp)
      obtain rfl := List.forall₂_nil_left_iff.mp h
      exact (Engine.compileFilter_token f token token').imp fun _ _ => .of_eq
  | search word =>
      obtain ⟨phrase, rfl⟩ := NodeKind.eq_search_of_gist hkind
      obtain rfl := List.forall₂_nil_left_iff.mp h
      exact Engine.compileSearch_agrees word phrase token token'

/-- Nodes of one gist over operands that stand for each other compile to plans
that agree, if nested queries do. -/
theorem node_plan (hnested : ∀ q, c.kind = .nestedQuery q →
      Compiles Plan.Agrees (engine.compileNested q c.token) (engine'.compileNested q c'.token)) :
    Compiles Plan.Agrees (engine.planOf (.node c ts)) (engine'.planOf (.node c' ts')) := by
  intro hclean
  have hshape := Engine.isPlanNode_of_clean hclean
  revert hclean
  obtain ⟨kind, token⟩ := c
  obtain ⟨kind', token'⟩ := c'
  dsimp only at hkind hshape hnested
  obtain ⟨handler, rfl⟩ := hengine
  cases hshape with
  | select t =>
      obtain rfl := (NodeKind.eq_of_gist hkind).resolve_right (by simp)
      obtain ⟨t', rfl, ht⟩ := Tree.forall₂_one h
      exact ht.condition.one fun _ _ => .select
  | intersection l r =>
      obtain rfl := (NodeKind.eq_of_gist hkind).resolve_right (by simp)
      obtain ⟨l', r', rfl, hl, hr⟩ := Tree.forall₂_pair h
      exact hl.plan.pair hr.plan fun _ _ _ _ => .intersection
  | union l r =>
      obtain rfl := (NodeKind.eq_of_gist hkind).resolve_right (by simp)
      obtain ⟨l', r', rfl, hl, hr⟩ := Tree.forall₂_pair h
      exact hl.plan.pair hr.plan fun _ _ _ _ => .union
  | nestedQuery q =>
      obtain rfl := (NodeKind.eq_of_gist hkind).resolve_right (by simp)
      obtain rfl := List.forall₂_nil_left_iff.mp h
      exact hnested q rfl
  | aggregator name source =>
      obtain rfl := (NodeKind.eq_of_gist hkind).resolve_right (by simp)
      obtain ⟨source', rfl, hsource⟩ := Tree.forall₂_one h
      rw [Engine.planOf_aggregator, Engine.planOf_aggregator]
      dsimp only
      cases engine.aggregators.find? name with
      | none =>
          intro hclean
          cases hclean
      | some a => exact hsource.plan.one fun _ _ => .aggregate a

/-- **Trees may be exchanged below a node, and the engine with them**, if nested
queries at the node itself agree. -/
theorem node (hnested : ∀ q, c.kind = .nestedQuery q →
      Compiles Plan.Agrees (engine.compileNested q c.token) (engine'.compileNested q c'.token)) :
    StandsAcross engine engine' (.node c ts) (.node c' ts') :=
  ⟨node_condition hengine hkind h, node_plan hengine hkind h hnested⟩

omit hkind h

/-- **Trees with the same gist may stand for each other**, for engines that
agree on the nested queries in them. -/
theorem of_sameGist {t t' : Tree Content} (hgist : t.map (·.kind.gist) = t'.map (·.kind.gist))
    (hnested : ∀ c ∈ t.preorder, ∀ q, c.kind = .nestedQuery q → ∀ token,
      Compiles Plan.Agrees (engine.compileNested q c.token) (engine'.compileNested q token)) :
    StandsAcross engine engine' t t' := by
  induction t generalizing t' with
  | node c ts ih =>
      obtain ⟨c', ts'⟩ := t'
      obtain ⟨hkind, hbelow⟩ := Tree.map_eq_map_iff.mp hgist
      refine .node hengine hkind.symm ?_ fun q hq => hnested c (by simp) q hq c'.token
      have hboth := (List.forall₂_and_left ts ts').mpr
        ⟨fun t ht => fun t' h => @ih t ht t' h fun c hc =>
          hnested c (Tree.mem_preorder_of_child ht hc), hbelow⟩
      exact hboth.imp fun _ _ h => h.1 _ h.2

end StandsAcross

/-- **Trees with the same gist may stand for each other.** -/
theorem StandsFor.of_sameGist {engine : Engine α} {t t' : Tree Content}
    (hgist : t.map (·.kind.gist) = t'.map (·.kind.gist)) : StandsFor engine t t' := by
  have hacross : StandsAcross engine engine t t' := by
    refine .of_sameGist ⟨engine.nestedHandler, rfl⟩ hgist fun c _ q _ token => ?_
    unfold Engine.compileNested
    cases engine.nestedHandler with
    | none => nofun
    | some handler => exact .pure (.refl _)
  exact ⟨hacross.condition, hacross.plan⟩

/-- **Trees may be exchanged below a node.** -/
theorem StandsFor.node {engine : Engine α} {c : Content} {ts ts' : List (Tree Content)}
    (h : List.Forall₂ (StandsFor engine) ts ts') :
    StandsFor engine (.node c ts) (.node c ts') := by
  have hacross : StandsAcross engine engine (.node c ts) (.node c ts') :=
    .node ⟨engine.nestedHandler, rfl⟩ rfl (h.imp fun _ _ h => ⟨h.condition, h.plan⟩)
      fun _ _ hclean => ⟨hclean, .refl _⟩
  exact ⟨hacross.condition, hacross.plan⟩

end Congruence

end FilterQuery
