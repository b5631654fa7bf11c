import FilterQuery.Proofs.Lowering
import FilterQuery.Proofs.TokenPlaces

/-!
# The tokens of a draft and its errors

Drafting makes nodes at the tokens of lexemes and at the gaps between two of
them, and reports errors at such tokens.  So what holds of the tokens of the
lexemes, and is handed on to gaps and to errors, holds of all nodes of the draft
and of all its errors.
-/

namespace FilterQuery

open FilterQuery.Graph (Item)

variable {source : String} {sort : Token → Prop} {sort' : QueryError → Prop}

/-- Tokens of one sort make errors of another: the gap between two of them is of
their sort too, and an error at one is of the other sort, if it is not about the
graph. -/
structure HandsOn (source : String) (sort : Token → Prop) (sort' : QueryError → Prop) : Prop where
  nowhere : sort {}
  gap : ∀ t u, sort t → sort u → sort (Token.ofRange source t.stop u.position)
  about : ∀ cause t, sort t → cause.kind ≠ .internal → sort' (QueryError.about cause t)

/-- One error about a token of this sort is one of the other sort. -/
theorem HandsOn.single (h : HandsOn source sort sort') {cause : Cause} {token : Token}
    (htoken : sort token) (hcause : cause.kind ≠ .internal) :
    ∀ e ∈ [QueryError.about cause token], sort' e :=
  List.forall_mem_singleton.mpr (h.about cause token htoken hcause)

namespace Graph

/-- The tokens of all nodes are of this sort. -/
def TokensAll (sort : Token → Prop) (g : Graph) : Prop := ∀ id, sort (g.token id)

variable {g : Graph}

theorem tokensAll_empty (h : sort {}) : TokensAll sort {} := fun _ => h

/-- A change of something else keeps the tokens. -/
theorem token_update {f : Node → Node} (hf : ∀ n, (f n).token = n.token) (id i : NodeId) :
    (g.update id f).token i = g.token i := by
  rw [token, node_update]
  split
  · exact hf _
  · rfl

/-- New children keep the tokens. -/
theorem token_setChildren (id : NodeId) (children : List NodeId) (i : NodeId) :
    (g.setChildren id children).token i = g.token i :=
  token_update (f := ({ · with children })) (fun _ => rfl) id i

/-- A new parent keeps the tokens. -/
theorem token_setParent (id : NodeId) (parent : Option NodeId) (i : NodeId) :
    (g.setParent id parent).token i = g.token i :=
  token_update (f := ({ · with parent })) (fun _ => rfl) id i

/-- A new link keeps the tokens. -/
theorem token_addChild (parent child i : NodeId) :
    (g.addChild parent child).token i = g.token i := by
  rw [addChild, token_setParent, token_setChildren]

/-- Another root keeps the tokens. -/
theorem token_setRoot (root : Option NodeId) (i : NodeId) :
    (g.setRoot root).token i = g.token i := by
  cases root with
  | none => rfl
  | some id => exact token_setParent id none i

namespace TokensAll

variable (h : g.TokensAll sort)

include h

/-- A node with a token of this sort may be added. -/
theorem add (kind : NodeKind) {token : Token} (htoken : sort token) :
    (g.add kind token).1.TokensAll sort := by
  intro i
  rw [Graph.token, node_add]
  split
  · exact htoken
  · exact h i

/-- A change of something else than tokens may be made. -/
theorem update {f : Node → Node} (hf : ∀ n, (f n).token = n.token) (id : NodeId) :
    (g.update id f).TokensAll sort := fun i => by
  rw [token_update hf]
  exact h i

/-- A link may be added. -/
theorem addChild (parent child : NodeId) : (g.addChild parent child).TokensAll sort := fun i => by
  rw [token_addChild]
  exact h i

/-- Another root may be chosen. -/
theorem setRoot (root : Option NodeId) : (g.setRoot root).TokensAll sort := fun i => by
  rw [token_setRoot]
  exact h i

end TokensAll

/-- The tokens of the items are of this sort. -/
def ItemsAll (sort : Token → Prop) (items : List Item) : Prop := ∀ item ∈ items, sort item.token

namespace ItemsAll

variable {item : Item} {items : List Item}

/-- An item of this sort may be put in front. -/
theorem cons (h : sort item.token) (hitems : ItemsAll sort items) :
    ItemsAll sort (item :: items) := List.forall_mem_cons.mpr ⟨h, hitems⟩

/-- Both the first item and the rest are of this sort. -/
theorem of_cons (h : ItemsAll sort (item :: items)) : sort item.token ∧ ItemsAll sort items :=
  List.forall_mem_cons.mp h

/-- The order of items does not matter. -/
theorem reverse (h : ItemsAll sort items) : ItemsAll sort items.reverse :=
  fun i hi => h i (List.mem_reverse.mp hi)

end ItemsAll

/-- The items that are left and the errors that are noted are of their sorts. -/
structure Combined (sort : Token → Prop) (sort' : QueryError → Prop)
    (x : Noted QueryError (List Item)) : Prop where
  items : ItemsAll sort x.value
  notes : ∀ e ∈ x.notes, sort' e

/-- Items of this sort with no errors are a result of both sorts. -/
theorem Combined.pure {items : List Item} (h : ItemsAll sort items) :
    Combined sort sort' (pure items) := ⟨h, List.forall_mem_nil _⟩

/-- Results of both sorts may be followed by others. -/
theorem Combined.bind {x : Noted QueryError (List Item)}
    {next : List Item → Noted QueryError (List Item)} (h : Combined sort sort' x)
    (hnext : ∀ items, ItemsAll sort items → Combined sort sort' (next items)) :
    Combined sort sort' (x >>= next) :=
  ⟨(hnext _ h.items).items, List.forall_mem_append.mpr ⟨h.notes, (hnext _ h.items).notes⟩⟩

section Combining

variable (h : HandsOn source sort sort')

include h

/-- Negating takes its tokens from the items. -/
theorem combineNot_tokens {items : List Item} (hitems : ItemsAll sort items) :
    Combined sort sort' (combineNot items) := by
  induction items with
  | nil => exact .pure hitems
  | cons item rest ih =>
      obtain ⟨hitem, hrest⟩ := hitems.of_cons
      rw [combineNot]
      refine (ih hrest).bind fun combined hcombined => ?_
      split
      · split
        · split
          · exact .pure (.cons hitem hcombined.of_cons.2)
          · exact ⟨hcombined, h.single hitem (by simp [Cause.kind])⟩
        · exact ⟨hcombined, h.single hitem (by simp [Cause.kind])⟩
      · exact .pure (.cons hitem hcombined)

/-- The error about a missing operand is about the item that misses it. -/
theorem missingOperands_tokens {item : Item} (hitem : sort item.token)
    (left right : Option Item) : ∀ e ∈ missingOperands item left right, sort' e := by
  have hmissing : ∀ (operand : Option Item) (cause : Cause), cause.kind ≠ .internal →
      ∀ e ∈ if operand.isNone then [QueryError.about cause item.token] else [], sort' e := by
    intro operand cause hcause
    split
    · exact h.single hitem hcause
    · exact List.forall_mem_nil _
  exact List.forall_mem_append.mpr
    ⟨hmissing left _ (by simp [Cause.kind]), hmissing right _ (by simp [Cause.kind])⟩

/-- Combining two by two takes its tokens from the items. -/
theorem combineBinaryFrom_tokens (kind : NodeKind) {done items : List Item}
    (hdone : ItemsAll sort done) (hitems : ItemsAll sort items) :
    Combined sort sort' (combineBinaryFrom kind done items) := by
  fun_induction combineBinaryFrom kind done items with
  | case1 => exact .pure hdone.reverse
  | case2 => exact ⟨hdone.reverse, missingOperands_tokens h hitems.of_cons.1 _ _⟩
  | case3 => exact .pure (hdone.cons hitems.of_cons.1).reverse
  | case4 done item next rest _ left right _ _ ih =>
      have hbehind : ItemsAll sort done.tail := fun i hi => hdone i (List.mem_of_mem_tail hi)
      have hcombined : sort (item.withOperands [left, right]).token := hitems.of_cons.1
      exact ih (.cons hcombined hbehind) hitems.of_cons.2.of_cons.2
  | case5 done item next rest _ _ ih =>
      obtain ⟨hleft, hnotes⟩ := ih hdone hitems.of_cons.2
      exact ⟨hleft,
        List.forall_mem_append.mpr ⟨missingOperands_tokens h hitems.of_cons.1 _ _, hnotes⟩⟩
  | case6 done item next rest _ ih => exact ih (.cons hitems.of_cons.1 hdone) hitems.of_cons.2

/-- Combining takes the tokens of its result and of its errors from the
items. -/
theorem combine_tokens {items : List Item} (hitems : ItemsAll sort items) :
    (∀ item ∈ (combine items).value, sort item.token) ∧ ∀ e ∈ (combine items).notes, sort' e := by
  have hcombined : Combined sort sort' (combineItems items) :=
    (combineNot_tokens h hitems).bind fun _ hitems =>
      (combineBinaryFrom_tokens h .and (List.forall_mem_nil _) hitems).bind fun _ hitems =>
        combineBinaryFrom_tokens h .or (List.forall_mem_nil _) hitems
  constructor
  · rw [value_combine]
    exact fun item hitem => hcombined.items item (List.mem_of_mem_head? hitem)
  · rw [notes_combine]
    refine List.forall_mem_append.mpr ⟨hcombined.notes, ?_⟩
    unfold extraNotes
    split
    · next heq =>
        exact h.single (hcombined.items _ (by rw [heq]; simp)) (by simp [Cause.kind])
    · exact List.forall_mem_nil _

end Combining

end Graph

namespace Draft

open FilterQuery.Graph (ItemsAll)
open Lexeme (everyToken everyTokenOf)

/-- The tokens of the nodes and the errors are of their sorts. -/
structure IsOf (sort : Token → Prop) (sort' : QueryError → Prop) (d : Draft) : Prop where
  graph : d.graph.TokensAll sort
  errors : ∀ e ∈ d.errors, sort' e

/-- Work that keeps the sorts and gives what has the property. -/
def Keeps {β : Type} (sort : Token → Prop) (sort' : QueryError → Prop) (post : β → Prop)
    (work : Drafting β) : Prop :=
  ∀ d, d.IsOf sort sort' → (work.run d).2.IsOf sort sort' ∧ post (work.run d).1

namespace Keeps

variable {β γ : Type} {post : β → Prop} {post' : γ → Prop}

/-- A value of this sort may be given back. -/
theorem pure {b : β} (h : post b) : Keeps sort sort' post (pure b : Drafting β) :=
  fun _ hd => ⟨hd, h⟩

/-- One piece of work may follow another. -/
theorem bind {work : Drafting β} {next : β → Drafting γ} (h : Keeps sort sort' post work)
    (hnext : ∀ b, post b → Keeps sort sort' post' (next b)) :
    Keeps sort sort' post' (work >>= next) := by
  intro d hd
  obtain ⟨hwork, hpost⟩ := h d hd
  exact hnext _ hpost _ hwork

/-- Work that leaves nodes and errors alone. -/
theorem of_same {work : Drafting β}
    (h : ∀ d, (work.run d).2.graph = d.graph ∧ (work.run d).2.errors = d.errors) :
    Keeps sort sort' (fun _ => True) work := by
  intro d hd
  refine ⟨⟨?_, ?_⟩, trivial⟩
  · rw [(h d).1]
    exact hd.graph
  · rw [(h d).2]
    exact hd.errors

/-- Noted errors of this sort may be taken over. -/
theorem absorb {x : Noted QueryError β} (hvalue : post x.value) (hnotes : ∀ e ∈ x.notes, sort' e) :
    Keeps sort sort' post (absorb x) :=
  fun _ hd => ⟨⟨hd.graph, List.forall_mem_append.mpr ⟨hd.errors, hnotes⟩⟩, hvalue⟩

end Keeps

/-- The token of the item is of this sort. -/
abbrev ItemOf (sort : Token → Prop) (item : Item) : Prop := sort item.token

/-- The token of the item that there may be is of this sort. -/
abbrev MaybeOf (sort : Token → Prop) (item : Option Item) : Prop := ∀ i ∈ item, sort i.token

/-- What may be missing is there, and of this sort. -/
theorem ItemOf.some {item : Item} (h : ItemOf sort item) : MaybeOf sort (some item) := by
  rintro i ⟨⟩
  exact h

/-- Adding a node gives an item with its token. -/
theorem add_tokens (kind : NodeKind) {token : Token} (skipped : Bool) (h : sort token) :
    Keeps sort sort' (ItemOf sort) (add kind token skipped) := by
  intro d hd
  have hgraph := hd.graph.add kind h
  cases skipped with
  | false => exact ⟨⟨hgraph, hd.errors⟩, hgraph _⟩
  | true =>
      have hskipped := hgraph.update (f := ({ · with skipped := true })) (fun _ => rfl)
        d.graph.nodes.size
      exact ⟨⟨hskipped, hd.errors⟩, hskipped _⟩

/-- Adding a block gives an item with its token. -/
theorem addBlock_tokens {block : NestedBlock} (h : sort block.token) (filter : Option String) :
    Keeps sort sort' (ItemOf sort) (addBlock block filter) := by
  unfold addBlock
  refine (add_tokens _ _ h).bind fun query hquery => ?_
  cases block.aggregator with
  | none => exact .pure hquery
  | some name => exact (add_tokens _ _ h).bind fun item hitem => .pure hitem

section Lexemes

variable {known : Knowledge} (h : HandsOn source sort sort')

include h

/-- An error about a token of this sort may be reported. -/
theorem report_tokens {cause : Cause} {token : Token} (htoken : sort token)
    (hcause : cause.kind ≠ .internal) :
    Keeps sort sort' (fun _ => True) (report (QueryError.about cause token)) :=
  fun _ hd =>
    ⟨⟨hd.graph, List.forall_mem_append.mpr ⟨hd.errors, h.single htoken hcause⟩⟩, trivial⟩

/-- What is wrong with an aggregator is reported at its block. -/
theorem checkAggregator_tokens {block : NestedBlock} (hblock : sort block.token) :
    Keeps sort sort' (fun _ => True) (checkAggregator known block) := by
  unfold checkAggregator
  cases block.aggregator with
  | none => exact .pure trivial
  | some name =>
      dsimp only
      split
      · exact report_tokens h hblock (by simp [Cause.kind])
      · exact .pure trivial

/-- The gaps between neighbours are filled with items of this sort. -/
theorem joinAdjacent_tokens {items : List Item} (hitems : ItemsAll sort items) :
    Keeps sort sort' (ItemsAll sort) (joinAdjacent source items) := by
  induction items with
  | nil => exact .pure hitems
  | cons left items ih =>
      cases items with
      | nil => exact .pure hitems
      | cons right rest =>
          obtain ⟨hleft, hrest⟩ := hitems.of_cons
          rw [joinAdjacent]
          split
          · refine (add_tokens _ _ (h.gap _ _ hleft hrest.of_cons.1)).bind fun gap hgap => ?_
            exact (ih hrest).bind fun joined hjoined => .pure (.cons hleft (.cons hgap hjoined))
          · exact (ih hrest).bind fun joined hjoined => .pure (.cons hleft hjoined)

/-- Items of this sort are composed to one, or to none. -/
theorem compose_tokens {items : List Item} (hitems : ItemsAll sort items) :
    Keeps sort sort' (MaybeOf sort) (compose source items) := by
  unfold compose
  refine (joinAdjacent_tokens h hitems).bind fun joined hjoined => ?_
  obtain ⟨hvalue, hnotes⟩ := Graph.combine_tokens h hjoined
  exact .absorb hvalue hnotes

/-- A filter and its block take the tokens that they have in the text. -/
theorem addFilter_tokens (hknown : known.IsSemantic) (f : FilterExpression)
    {block : Option NestedBlock} {token : Token} (htoken : sort token)
    (hblock : ∀ b ∈ block, sort b.token) :
    Keeps sort sort' (ItemOf sort) (addFilter known f block token) := by
  have hjudged : ∀ {nested : Bool} {cause : Cause}, (known.judge f nested).cause = some cause →
      cause.kind ≠ .internal := by
    intro nested cause hcause
    rw [hknown f nested cause hcause]
    decide
  unfold addFilter
  cases block with
  | none =>
      refine (add_tokens _ _ htoken).bind fun item hitem => ?_
      dsimp only
      split
      · next hcause =>
          exact (report_tokens h htoken (hjudged hcause)).bind fun _ _ => .pure hitem
      · exact .pure hitem
  | some block =>
      have hb : sort block.token := hblock block rfl
      refine (add_tokens _ _ htoken).bind fun item hitem => ?_
      refine (addBlock_tokens hb _).bind fun value _ => ?_
      have hwhole : ItemOf sort (item.withOperands [value]) := hitem
      have hchecked : Keeps sort sort' (ItemOf sort) (do
          checkAggregator known block
          return item.withOperands [value]) :=
        (checkAggregator_tokens h hb).bind fun _ _ => .pure hwhole
      dsimp only
      split
      · split
        · next hcause =>
            exact (report_tokens h htoken (hjudged hcause)).bind fun _ _ => hchecked
        · exact hchecked
      · exact (report_tokens h htoken (by simp [Cause.kind])).bind fun _ _ => .pure hwhole

end Lexemes

mutual

/-- A lexeme is drafted with the tokens in it alone. -/
theorem addLexeme_tokens {known : Knowledge} (h : HandsOn source sort sort')
    (hknown : known.IsSemantic) : ∀ l : Lexeme, (∀ t ∈ everyToken l, sort t) →
      Keeps sort sort' (MaybeOf sort) (addLexeme known source l)
  | .group inner token, ht => by
      rw [addLexeme]
      have hinner : ∀ t ∈ everyTokenOf inner, sort t :=
        fun t hmem => ht t (List.mem_cons_of_mem token hmem)
      refine (addLexemes_tokens h hknown inner hinner).bind fun items hitems => ?_
      refine (compose_tokens h hitems).bind fun root _ => ?_
      cases root with
      | none => exact .pure (fun _ hi => absurd hi (Option.not_mem_none _))
      | some child =>
          exact (add_tokens _ _ (ht token List.mem_cons_self)).bind fun _ hitem =>
            .pure (ItemOf.some hitem)
  | .and token, ht | .or token, ht | .not token, ht | .word s token, ht => by
      rw [addLexeme]
      exact (add_tokens _ _ (ht token List.mem_cons_self)).bind fun _ hitem =>
        .pure (ItemOf.some hitem)
  | .nested block, ht => by
      have hblock : sort block.token := ht block.token List.mem_cons_self
      rw [addLexeme]
      refine (addBlock_tokens hblock _).bind fun item hitem => ?_
      split
      · exact (checkAggregator_tokens h hblock).bind fun _ _ => .pure (ItemOf.some hitem)
      · exact (report_tokens h hblock (by simp [Cause.kind])).bind fun _ _ =>
          .pure (ItemOf.some hitem)
  | .filter f block token, ht => by
      have hblock : ∀ b ∈ block, sort b.token := fun b hb =>
        ht b.token (List.mem_cons_of_mem token
          (Option.mem_toList.mpr (Option.mem_map_of_mem NestedBlock.token hb)))
      rw [addLexeme]
      exact (addFilter_tokens h hknown f (ht token List.mem_cons_self) hblock).bind
        fun _ hitem => .pure (ItemOf.some hitem)
  | .toggle name token, ht | .comment content token, ht => by
      rw [addLexeme]
      refine (Keeps.of_same fun _ => ⟨rfl, rfl⟩).bind fun _ _ => ?_
      exact (add_tokens _ _ (ht token List.mem_cons_self)).bind fun _ hitem =>
        .pure (ItemOf.some hitem)

/-- Lexemes are drafted with the tokens in them alone. -/
theorem addLexemes_tokens {known : Knowledge} (h : HandsOn source sort sort')
    (hknown : known.IsSemantic) : ∀ ls : List Lexeme, (∀ t ∈ everyTokenOf ls, sort t) →
      Keeps sort sort' (ItemsAll sort) (addLexemes known source ls)
  | [], _ => .pure (List.forall_mem_nil _)
  | l :: ls, ht => by
      rw [everyTokenOf] at ht
      rw [addLexemes]
      refine (addLexeme_tokens h hknown l fun t hmem => ht t (List.mem_append_left _ hmem)).bind
        fun item hitem => ?_
      refine (addLexemes_tokens h hknown ls fun t hmem => ht t (List.mem_append_right _ hmem)).bind
        fun items hitems => .pure fun i hi => ?_
      rcases List.mem_append.mp hi with hi | hi
      · exact hitem i (Option.mem_toList.mp hi)
      · exact hitems i hi

end

mutual

/-- Linking an item keeps the tokens. -/
theorem link_tokens {g : Graph} (h : g.TokensAll sort) :
    ∀ item : Item, (link g item).TokensAll sort
  | .node p ts => by
      rw [link]
      exact linkAll_tokens h p.id ts

/-- Linking several items keeps the tokens. -/
theorem linkAll_tokens {g : Graph} (h : g.TokensAll sort) (parent : NodeId) :
    ∀ items : List Item, (linkAll parent g items).TokensAll sort
  | [] => h
  | t :: ts => by
      rw [linkAll]
      exact linkAll_tokens ((link_tokens h t).addChild parent t.label.id) parent ts

end

/-- **What holds of the tokens of the lexemes holds of the draft**, of its nodes
and its errors, if it is handed on. -/
theorem ofLexemes_tokens {known : Knowledge} (h : HandsOn source sort sort')
    (hknown : known.IsSemantic) {ls : List Lexeme} (hls : ∀ t ∈ everyTokenOf ls, sort t) :
    (ofLexemes known source ls).IsOf sort sort' := by
  have hbuild : Keeps sort sort' (MaybeOf sort)
      (do compose source (← addLexemes known source ls)) :=
    (addLexemes_tokens h hknown ls hls).bind fun _ hitems => compose_tokens h hitems
  have hbuilt := (hbuild {} ⟨Graph.tokensAll_empty h.nowhere, List.forall_mem_nil _⟩).1
  unfold ofLexemes
  dsimp only
  generalize StateT.run (do compose source (← addLexemes known source ls)) {} = built at hbuilt ⊢
  obtain ⟨root, d⟩ := built
  cases root with
  | none => exact hbuilt
  | some t => exact ⟨(link_tokens hbuilt.graph t).setRoot _, hbuilt.errors⟩

end Draft

end FilterQuery
