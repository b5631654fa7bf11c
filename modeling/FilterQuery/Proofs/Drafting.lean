import FilterQuery.Proofs.Planting
import FilterQuery.Proofs.Sequences

/-!
# Drafts

While the lexemes of a text are gone through, nodes are added to a graph and
errors are reported; nothing that is there already is changed, and no links are
laid.  `Makes` says this of a piece of work, together with what holds of its
result, of the places that it makes and of the errors that it reports.  It
passes along a sequence of steps, so that each function has one statement about
what it makes.

The main statements are that the lexemes of a derivation give items that say
what the lexemes say, at places of their own, and that lexemes which leave no
error of syntax behind are derivable.
-/

namespace FilterQuery

open FilterQuery.Graph Grammar

/-- A node of this kind is left out of evaluation. -/
def Knowledge.skips (known : Knowledge) : NodeKind → Bool
  | .filter f => (known.judge f false).skipped
  | .nestedFilter f => known.resolvesNested && (known.judge f true).skipped
  | .toggle _ | .comment _ => true
  | _ => false

/-- The error about a filter that is not as it should be. -/
def Knowledge.filterFaults (known : Knowledge) (f : FilterExpression) (nested : Bool)
    (token : Token) : List QueryError :=
  (known.judge f nested).cause.toList.map (QueryError.about · token)

/-- The error about an aggregator that is not known. -/
def Knowledge.aggregatorFaults (known : Knowledge) (block : NestedBlock) : List QueryError :=
  (block.aggregator.toList.filter (!known.hasAggregator ·)).map
    fun name => QueryError.about (.unknownAggregator name) block.token

mutual

/-- The errors about the names in a lexeme. -/
def Knowledge.faults (known : Knowledge) : Lexeme → List QueryError
  | .group inner _ => known.faultsOf inner
  | .nested block =>
    if known.resolvesNested then known.aggregatorFaults block
    else [QueryError.about (.unresolvableNestedQuery block.query) block.token]
  | .filter f none token => known.filterFaults f false token
  | .filter f (some block) token =>
    if known.resolvesNested then known.filterFaults f true token ++ known.aggregatorFaults block
    else [QueryError.about (.unresolvableNestedQuery block.query) token]
  | .and _ | .or _ | .not _ | .toggle _ _ | .comment _ _ | .word _ _ => []

/-- The errors about the names in lexemes side by side. -/
def Knowledge.faultsOf (known : Knowledge) : List Lexeme → List QueryError
  | [] => []
  | l :: ls => known.faults l ++ known.faultsOf ls

end

/-- Faults of lexemes one after the other are those of both parts. -/
theorem Knowledge.faultsOf_append (known : Knowledge) (ls ls' : List Lexeme) :
    known.faultsOf (ls ++ ls') = known.faultsOf ls ++ known.faultsOf ls' := by
  induction ls with
  | nil => rfl
  | cons l ls ih =>
      rw [List.cons_append, Knowledge.faultsOf, Knowledge.faultsOf, ih, List.append_assoc]

namespace Draft

/-- Places have been made and errors reported: the places are new nodes without
links, skipped if their kind is, and the nodes that were there before are as
they were. -/
structure Drafted (known : Knowledge) (d d' : Draft) (ps : List Place) (es : List QueryError) :
    Prop where
  stored : ∀ p ∈ ps, p.id < d'.graph.nodes.size ∧ d'.graph.node p.id = p.node ∧
    p.node = { kind := p.kind, token := p.token, skipped := known.skips p.kind }
  fresh : ∀ p ∈ ps, d.graph.nodes.size ≤ p.id
  nodup : (ps.map (·.id)).Nodup
  grows : d.graph.nodes.size ≤ d'.graph.nodes.size
  frame : ∀ i, i < d.graph.nodes.size → d'.graph.node i = d.graph.node i
  root : d'.graph.root = d.graph.root
  errors : d'.errors = d.errors ++ es

namespace Drafted

variable {known : Knowledge} {d d₁ d₂ : Draft} {ps qs : List Place} {es fs : List QueryError}

/-- Work that leaves the graph alone. -/
theorem of_graph_eq (hgraph : d₁.graph = d.graph) (herrors : d₁.errors = d.errors ++ es) :
    Drafted known d d₁ [] es where
  stored := by simp
  fresh := by simp
  nodup := by simp
  grows := Nat.le_of_eq (by rw [hgraph])
  frame i _ := by rw [hgraph]
  root := by rw [hgraph]
  errors := herrors

/-- Work after work stores the places and the errors of both. -/
theorem trans (h₁ : Drafted known d d₁ ps es) (h₂ : Drafted known d₁ d₂ qs fs) :
    Drafted known d d₂ (ps ++ qs) (es ++ fs) where
  stored := by
    intro p hp
    rcases List.mem_append.mp hp with hp | hp
    · obtain ⟨hbound, hnode, hshape⟩ := h₁.stored p hp
      exact ⟨Nat.lt_of_lt_of_le hbound h₂.grows, (h₂.frame _ hbound).trans hnode, hshape⟩
    · exact h₂.stored p hp
  fresh := by
    intro p hp
    rcases List.mem_append.mp hp with hp | hp
    · exact h₁.fresh p hp
    · exact Nat.le_trans h₁.grows (h₂.fresh p hp)
  nodup := by
    rw [List.map_append, List.nodup_append']
    refine ⟨h₁.nodup, h₂.nodup, fun i hi hi' => ?_⟩
    obtain ⟨p, hp, rfl⟩ := List.mem_map.mp hi
    obtain ⟨q, hq, hpq⟩ := List.mem_map.mp hi'
    have hlt := (h₁.stored p hp).1
    have hge := h₂.fresh q hq
    exact absurd hge (Nat.not_le.mpr (hpq ▸ hlt))
  grows := Nat.le_trans h₁.grows h₂.grows
  frame i hi := by rw [h₂.frame i (Nat.lt_of_lt_of_le hi h₁.grows), h₁.frame i hi]
  root := h₂.root.trans h₁.root
  errors := by rw [h₂.errors, h₁.errors, List.append_assoc]

/-- It does not matter in which order the places are listed. -/
theorem perm (h : Drafted known d d₁ ps es) (hperm : ps.Perm qs) : Drafted known d d₁ qs es where
  stored p hp := h.stored p (hperm.mem_iff.mpr hp)
  fresh p hp := h.fresh p (hperm.mem_iff.mpr hp)
  nodup := (hperm.map _).nodup_iff.mp h.nodup
  grows := h.grows
  frame := h.frame
  root := h.root
  errors := h.errors

end Drafted

/-- Whatever the draft is, the work makes places and reports errors such that
its result, the places and the errors are as stated. -/
def Makes {β : Type} (known : Knowledge) (work : Drafting β)
    (post : β → List Place → List QueryError → Prop) : Prop :=
  ∀ d, ∃ ps es, Drafted known d (work.run d).2 ps es ∧ post (work.run d).1 ps es

namespace Makes

variable {β γ : Type} {known : Knowledge} {work : Drafting β}
  {post : β → List Place → List QueryError → Prop}

theorem pure {b : β} (h : post b [] []) : Makes known (pure b : Drafting β) post :=
  fun d => ⟨[], [], .of_graph_eq rfl (List.append_nil d.errors).symm, h⟩

/-- **Work in sequence.**  Its places and errors are those of the first part,
then those of the second. -/
theorem bind {next : β → Drafting γ} {post' : γ → List Place → List QueryError → Prop}
    (h : Makes known work post) (hnext : ∀ b ps es, post b ps es →
      Makes known (next b) fun c qs fs => post' c (ps ++ qs) (es ++ fs)) :
    Makes known (work >>= next) post' := by
  intro d
  obtain ⟨ps, es, hdrafted, hpost⟩ := h d
  obtain ⟨qs, fs, hdrafted', hpost'⟩ := hnext _ ps es hpost (work.run d).2
  exact ⟨ps ++ qs, es ++ fs, hdrafted.trans hdrafted', hpost'⟩

/-- What is made has every property that follows from what it has. -/
theorem mono {post' : β → List Place → List QueryError → Prop} (h : Makes known work post)
    (hpost : ∀ b ps es, post b ps es → post' b ps es) : Makes known work post' := by
  intro d
  obtain ⟨ps, es, hdrafted, hp⟩ := h d
  exact ⟨ps, es, hdrafted, hpost _ _ _ hp⟩

end Makes

variable {known : Knowledge}

/-- Adding a node stores it and gives an item for it. -/
theorem add_makes {kind : NodeKind} {token : Token} {skipped : Bool}
    (hskips : known.skips kind = skipped) :
    Makes known (add kind token skipped) fun item ps es =>
      said item = .leaf ⟨kind, token⟩ ∧ ps = item.preorder ∧ es = [] := by
  intro d
  let new : Node := { kind, token, skipped }
  let added := ((add kind token skipped).run d).2.graph
  have hnode : ∀ i, added.node i = if i = d.graph.nodes.size then new else d.graph.node i := by
    intro i
    have hadd := node_add d.graph kind token i
    cases skipped with
    | false => exact hadd
    | true =>
        have hupdate := node_update (d.graph.add kind token).1 d.graph.nodes.size
          ({ · with skipped := true }) i
        refine hupdate.trans ?_
        by_cases hi : i = d.graph.nodes.size
        · simp [hi, node_add, new]
        · simp [hi, node_add]
  have hsize : added.nodes.size = d.graph.nodes.size + 1 := by
    cases skipped <;> simp [added, add, StateT.run, bind, StateT.bind, get, getThe,
      MonadStateOf.get, StateT.get, set, StateT.set, pure, StateT.pure]
  have hroot : added.root = d.graph.root := by
    cases skipped <;> rfl
  have hitem : ((add kind token skipped).run d).1 = .leaf ⟨d.graph.nodes.size, new⟩ := by
    have hnew := hnode d.graph.nodes.size
    rw [if_pos rfl] at hnew
    rw [← hnew]
    rfl
  refine ⟨[⟨d.graph.nodes.size, new⟩], [], ⟨?_, ?_, ?_, ?_, ?_, hroot, ?_⟩, ?_⟩
  · intro p hp
    obtain rfl := List.mem_singleton.mp hp
    refine ⟨by rw [hsize]; exact Nat.lt_succ_self _, (hnode _).trans (if_pos rfl), ?_⟩
    simp [Place.kind, Place.token, new, hskips]
  · intro p hp
    obtain rfl := List.mem_singleton.mp hp
    exact Nat.le_refl _
  · simp
  · rw [hsize]
    exact Nat.le_succ _
  · intro i hi
    exact (hnode i).trans (if_neg (Nat.ne_of_lt hi))
  · exact (List.append_nil _).symm
  · rw [hitem]
    exact ⟨by simp [Tree.leaf, Place.content, Place.kind, Place.token, new],
      by simp [Tree.leaf], rfl⟩

/-- Work that makes no places and reports the errors. -/
def Reports {β : Type} (known : Knowledge) (work : Drafting β) (faults : List QueryError) : Prop :=
  Makes known work fun _ ps es => ps = [] ∧ es = faults

theorem report_reports (e : QueryError) : Reports known (report e) [e] :=
  fun _ => ⟨[], [e], .of_graph_eq rfl rfl, rfl, rfl⟩

/-- Work that leaves graph and errors alone. -/
theorem remember_reports {f : Draft → Draft}
    (hf : ∀ d, (f d).graph = d.graph ∧ (f d).errors = d.errors) :
    Reports known (modify f : Drafting PUnit) [] := by
  intro d
  refine ⟨[], [], .of_graph_eq (hf d).1 ?_, rfl, rfl⟩
  rw [List.append_nil]
  exact (hf d).2

/-- What is noted is taken over with its errors. -/
theorem absorb_makes {β : Type} (x : Noted QueryError β) :
    Makes known (absorb x) fun b ps es => b = x.value ∧ ps = [] ∧ es = x.notes :=
  fun _ => ⟨[], x.notes, .of_graph_eq rfl rfl, rfl, rfl, rfl⟩

/-- Checking an aggregator reports the fault that is known of it. -/
theorem checkAggregator_reports (block : NestedBlock) :
    Reports known (checkAggregator known block) (known.aggregatorFaults block) := by
  rw [checkAggregator, Knowledge.aggregatorFaults]
  cases block.aggregator with
  | none => exact Makes.pure ⟨rfl, rfl⟩
  | some name =>
      simp only [Option.toList_some, List.filter_cons, List.filter_nil]
      cases known.hasAggregator name with
      | true => exact Makes.pure ⟨rfl, rfl⟩
      | false => exact report_reports _

/-- Work behind other work that only reports errors. -/
theorem Reports.bind {β γ : Type} {work : Drafting β} {next : β → Drafting γ}
    {faults : List QueryError} {post : γ → List Place → List QueryError → Prop}
    (h : Reports known work faults)
    (hnext : ∀ b, Makes known (next b) fun c qs fs => post c qs (faults ++ fs)) :
    Makes known (work >>= next) post := by
  refine Makes.bind h ?_
  rintro b _ _ ⟨rfl, rfl⟩
  exact hnext b

/-- Work that makes an item which says the tree, at places of its own, and
reports the errors. -/
def MakesItem (known : Knowledge) (work : Drafting Item) (t : Tree Content)
    (faults : List QueryError) : Prop :=
  Makes known work fun item ps es => said item = t ∧ ps.Perm item.preorder ∧ es = faults

/-- Adding a node makes an item that says it, without a fault. -/
theorem add_makesItem {kind : NodeKind} {token : Token} {skipped : Bool}
    (hskips : known.skips kind = skipped) :
    MakesItem known (add kind token skipped) (.leaf ⟨kind, token⟩) [] :=
  (add_makes hskips).mono fun _ _ _ ⟨hsaid, hps, hes⟩ => ⟨hsaid, hps ▸ List.Perm.refl _, hes⟩

/-- An item made for a node and those below it is a permutation of their
places. -/
theorem preorder_withOperands_of_leaf {item : Item} {c : Content} (h : said item = .leaf c)
    (operands : List Item) :
    (item.withOperands operands).preorder = item.preorder ++ operands.flatMap Tree.preorder := by
  obtain ⟨p, items⟩ := item
  have hempty : items = [] := by
    have hchildren := congrArg Tree.children h
    simpa [Tree.leaf] using hchildren
  subst hempty
  simp [Item.withOperands]

/-- Adding a block makes an item that says it, without a fault. -/
theorem addBlock_makes (block : NestedBlock) (filter : Option String) :
    MakesItem known (addBlock block filter) (block.tree filter) [] := by
  rw [addBlock, NestedBlock.tree]
  refine Makes.bind (add_makesItem rfl) ?_
  rintro query ps es ⟨hquery, hps, rfl⟩
  cases block.aggregator with
  | none => exact .pure ⟨hquery, by simpa using hps, rfl⟩
  | some name =>
      refine Makes.bind (add_makesItem rfl) ?_
      rintro item qs fs ⟨hitem, hqs, rfl⟩
      refine .pure ⟨?_, ?_, rfl⟩
      · rw [said_withOperands, content_of_said hitem, ← hquery]
        rfl
      · rw [preorder_withOperands_of_leaf hitem]
        simpa using List.perm_append_comm.trans (hqs.append hps)

/-- Adding a filter makes an item that says it, and reports its faults. -/
theorem addFilter_makes (f : FilterExpression) (token : Token) :
    MakesItem known (addFilter known f none token) (.leaf ⟨.filter f, token⟩)
      (known.faults (.filter f none token)) := by
  rw [addFilter, Knowledge.faults, Knowledge.filterFaults]
  refine Makes.bind (add_makesItem rfl) ?_
  rintro item ps es ⟨hitem, hps, rfl⟩
  simp only [Option.isSome_none]
  have hperm : (ps ++ []).Perm item.preorder := by simpa using hps
  cases (known.judge f false).cause with
  | none => exact .pure ⟨hitem, hperm, rfl⟩
  | some cause => exact (report_reports _).bind fun _ => .pure ⟨hitem, hperm, rfl⟩

/-- Adding a filter with a nested query makes an item that says both, and
reports their faults. -/
theorem addNestedFilter_makes (f : FilterExpression) (block : NestedBlock) (token : Token) :
    MakesItem known (addFilter known f (some block) token)
      (.node ⟨.nestedFilter f, token⟩ [block.tree (some f.name)])
      (known.faults (.filter f (some block) token)) := by
  rw [addFilter, Knowledge.faults, Knowledge.filterFaults]
  refine Makes.bind (add_makesItem rfl) ?_
  rintro item ps es ⟨hitem, hps, rfl⟩
  refine Makes.bind (addBlock_makes block _) ?_
  rintro value qs es ⟨hvalue, hqs, rfl⟩
  have hsaid : said (item.withOperands [value]) =
      .node ⟨.nestedFilter f, token⟩ [block.tree (some f.name)] := by
    rw [said_withOperands, content_of_said hitem, ← hvalue]
    rfl
  have hperm : (ps ++ (qs ++ [])).Perm (item.withOperands [value]).preorder := by
    rw [preorder_withOperands_of_leaf hitem]
    simpa using hps.append hqs
  simp only [Option.isSome_some]
  cases known.resolvesNested with
  | false => exact (report_reports _).bind fun _ => .pure ⟨hsaid, hperm, rfl⟩
  | true =>
      cases (known.judge f true).cause with
      | none =>
          refine (checkAggregator_reports block).bind fun _ => .pure ⟨hsaid, hperm, ?_⟩
          simp
      | some cause =>
          refine (report_reports _).bind fun _ => (checkAggregator_reports block).bind fun _ =>
            .pure ⟨hsaid, hperm, ?_⟩
          simp

/-- Work for a lexeme that makes such an item. -/
def MakesSome (known : Knowledge) (work : Drafting (Option Item)) (t : Tree Content)
    (faults : List QueryError) : Prop :=
  Makes known work fun item? ps es =>
    ∃ item, item? = some item ∧ said item = t ∧ ps.Perm item.preorder ∧ es = faults

/-- An item may be given back as one that there may be. -/
theorem MakesItem.returned {work : Drafting Item} {t : Tree Content} {faults : List QueryError}
    (h : MakesItem known work t faults) : MakesSome known (do return some (← work)) t faults := by
  refine Makes.bind h ?_
  rintro item ps es ⟨hsaid, hps, rfl⟩
  exact .pure ⟨item, rfl, hsaid, by simpa using hps, by simp⟩

/-- Adding a nested query makes an item that says it, and reports its faults. -/
theorem addNested_makes (text : String) (block : NestedBlock) :
    MakesSome known (addLexeme known text (.nested block)) (block.tree none)
      (known.faults (.nested block)) := by
  rw [addLexeme, Knowledge.faults]
  refine Makes.bind (addBlock_makes block _) ?_
  rintro item ps es ⟨hitem, hps, rfl⟩
  have hperm : (ps ++ []).Perm item.preorder := by simpa using hps
  cases known.resolvesNested with
  | false => exact (report_reports _).bind fun _ => .pure ⟨item, rfl, hitem, hperm, rfl⟩
  | true =>
      exact (checkAggregator_reports block).bind fun _ =>
        .pure ⟨item, rfl, hitem, hperm, by simp⟩

variable {text : String}

/-- Joining items loses none of their places and reports nothing. -/
theorem joinAdjacent_makes (items : List Item) :
    Makes known (joinAdjacent text items) fun js ps es => Joins text items js ∧
      (items.flatMap Tree.preorder ++ ps).Perm (js.flatMap Tree.preorder) ∧ es = [] := by
  induction items with
  | nil => exact .pure ⟨.nil, .refl _, rfl⟩
  | cons left items ih =>
      cases items with
      | nil => exact .pure ⟨.single left, by simp, rfl⟩
      | cons right rest =>
          rw [joinAdjacent]
          by_cases hadj : left.isAdjacent right
          · rw [if_pos hadj, addGap]
            refine Makes.bind (add_makesItem rfl) ?_
            rintro gap ps es ⟨hgap, hps, rfl⟩
            refine ih.bind ?_
            rintro js qs fs ⟨hjoins, hqs, rfl⟩
            refine .pure ⟨.adjacent hadj hgap hjoins, ?_, rfl⟩
            have hmid : ((right :: rest).flatMap Tree.preorder ++ (ps ++ (qs ++ []))).Perm
                (gap.preorder ++ js.flatMap Tree.preorder) := by
              rw [List.append_nil]
              exact (List.perm_append_comm_assoc ..).trans (hps.append hqs)
            simpa using hmid.append_left left.preorder
          · rw [if_neg hadj]
            refine ih.bind ?_
            rintro js qs fs ⟨hjoins, hqs, rfl⟩
            refine .pure ⟨.apart hadj hjoins, ?_, rfl⟩
            simpa using hqs.append_left left.preorder

/-- Composing joins the items and then combines them. -/
theorem compose_makes (items : List Item) :
    Makes known (compose text items) fun root ps es => ∃ js, Joins text items js ∧
      (items.flatMap Tree.preorder ++ ps).Perm (js.flatMap Tree.preorder) ∧
      root = (combine js).value ∧ es = (combine js).notes := by
  rw [compose]
  refine (joinAdjacent_makes items).bind ?_
  rintro js ps es ⟨hjoins, hps, rfl⟩
  refine (absorb_makes (combine js)).mono ?_
  rintro root _ _ ⟨rfl, rfl, rfl⟩
  exact ⟨js, hjoins, by simpa using hps, rfl, rfl⟩

/-- None of the errors is one of syntax. -/
def Clean (es : List QueryError) : Prop := ∀ e ∈ es, e.kind ≠ .syntactic

/-- Errors one after the other are clean exactly if both parts are. -/
theorem Clean.append {es fs : List QueryError} :
    Clean (es ++ fs) ↔ Clean es ∧ Clean fs := by
  simp only [Clean, List.mem_append, or_imp, forall_and]

/-- What is made of a sequence of lexemes, given the places of their items: a
derivable one gives its tree, and one that leaves no error of syntax behind is
derivable unless it is empty. -/
structure Composed (text : String) (ls : List Lexeme) (root : Option Item)
    (places : List Place) (es : List QueryError) : Prop where
  derived : ∀ t, Disjunction text ls t →
    ∃ item, root = some item ∧ said item = t ∧ places.Perm item.preorder ∧ es = []
  empty : ls = [] → root = none ∧ es = []
  derivable : Clean es → ls = [] ∨ ∃ t, Disjunction text ls t

/-- Composing items that say what lexemes read as reads the lexemes. -/
theorem composed_makes (ls : List Lexeme) (items : List Item) :
    Makes known (compose text items) fun root ps es =>
      List.Forall₂ (Faithful text) ls items →
        Composed text ls root (items.flatMap Tree.preorder ++ ps) es := by
  refine (compose_makes items).mono ?_
  rintro root ps es ⟨js, hjoins, hperm, rfl, rfl⟩ h
  refine ⟨?_, ?_, ?_⟩
  · intro t ht
    obtain ⟨w, hw, hsaid⟩ := ht.combines h hjoins
    rw [hw.combine]
    exact ⟨w, rfl, hsaid, hperm.trans hw.preorder.symm, rfl⟩
  · rintro rfl
    obtain rfl := List.forall₂_nil_left_iff.mp h
    cases hjoins with
    | nil => exact ⟨rfl, rfl⟩
  · intro hclean
    have hnotes : (combine js).notes = [] := by
      refine List.eq_nil_iff_forall_not_mem.mpr fun e he => ?_
      exact hclean e he (combine_syntactic js e he)
    have hspells := hjoins.spells h
    rcases combines_of_combine hnotes with rfl | ⟨w, hw⟩
    · cases hjoins with
      | nil => exact .inl (List.forall₂_nil_right_iff.mp h)
    · exact .inr (derives_of_combines hw hspells)

/-- What is made of a lexeme: one that says something gives an item that says
so, and one that leaves no error of syntax behind says something. -/
structure Spelled (known : Knowledge) (text : String) (l : Lexeme) (item? : Option Item)
    (ps : List Place) (es : List QueryError) : Prop where
  read : ∀ t, Reads text l t →
    ∃ item, item? = some item ∧ said item = t ∧ ps.Perm item.preorder ∧ es = known.faults l
  readable : IsFilled l → Clean es → ∃ t, Reads text l t

/-- What is made of lexemes side by side. -/
structure SpelledAll (known : Knowledge) (text : String) (ls : List Lexeme) (items : List Item)
    (ps : List Place) (es : List QueryError) : Prop where
  read : (∀ l ∈ ls, ∃ t, Reads text l t) → List.Forall₂ (Faithful text) ls items ∧
    ps.Perm (items.flatMap Tree.preorder) ∧ es = known.faultsOf ls
  readable : AllFilled ls → Clean es → ∀ l ∈ ls, ∃ t, Reads text l t

/-- The work for a lexeme other than a group, if it makes what the lexeme
says. -/
theorem spelled_makes {l : Lexeme} {t : Tree Content} {work : Drafting (Option Item)}
    (h : MakesSome known work t (known.faults l)) (hreads : Reads text l t)
    (hl : ∀ inner token, l ≠ .group inner token) : Makes known work (Spelled known text l) := by
  refine h.mono ?_
  rintro item? ps es ⟨item, rfl, hsaid, hps, hes⟩
  refine ⟨fun u hu => ?_, fun _ _ => ⟨t, hreads⟩⟩
  exact ⟨item, rfl, hsaid.trans (hreads.unique hu hl), hps, hes⟩

/-- A lexeme and the lexemes behind it are spelled one after the other. -/
theorem Spelled.cons {l : Lexeme} {ls : List Lexeme} {item? : Option Item} {items : List Item}
    {ps qs : List Place} {es fs : List QueryError} (head : Spelled known text l item? ps es)
    (tail : SpelledAll known text ls items qs fs) :
    SpelledAll known text (l :: ls) (item?.toList ++ items) (ps ++ qs) (es ++ fs) where
  read := by
    intro hreads
    obtain ⟨t, ht⟩ := hreads l (by simp)
    obtain ⟨item, rfl, hsaid, hps, hes⟩ := head.read t ht
    obtain ⟨hitems, hqs, hfs⟩ := tail.read fun l hl => hreads l (by simp [hl])
    have hfaithful : Faithful text l item := by
      refine ⟨hsaid ▸ ht, fun u hu => ?_⟩
      obtain ⟨_, hitem, hsaidu, -, -⟩ := head.read u hu
      exact Option.some.inj hitem ▸ hsaidu
    refine ⟨.cons hfaithful hitems, ?_, ?_⟩
    · simpa using hps.append hqs
    · rw [Knowledge.faultsOf, hes, hfs]
  readable := by
    rintro ⟨hfilled, hfilleds⟩ hclean
    obtain ⟨hes, hfs⟩ := Clean.append.mp hclean
    intro m hm
    rcases List.mem_cons.mp hm with rfl | hm
    · exact head.readable hfilled hes
    · exact tail.readable hfilleds hfs m hm

/-- What is made of the body of a group that is readable, or clean and
filled. -/
theorem SpelledAll.derivable {ls : List Lexeme} {items : List Item} {ps qs : List Place}
    {es fs : List QueryError} {root : Option Item} (h : SpelledAll known text ls items ps es)
    (hcomposed : List.Forall₂ (Faithful text) ls items →
      Composed text ls root (items.flatMap Tree.preorder ++ qs) fs)
    (hfilled : AllFilled ls) (hclean : Clean (es ++ fs)) :
    ls = [] ∨ ∃ t, Disjunction text ls t := by
  obtain ⟨hes, hfs⟩ := Clean.append.mp hclean
  have hreads := h.readable hfilled hes
  exact (hcomposed (h.read hreads).1).derivable hfs

/-- What is made of the body of a group that is derivable. -/
theorem SpelledAll.derived {ls : List Lexeme} {items : List Item} {ps qs : List Place}
    {es fs : List QueryError} {root : Option Item} (h : SpelledAll known text ls items ps es)
    (hcomposed : List.Forall₂ (Faithful text) ls items →
      Composed text ls root (items.flatMap Tree.preorder ++ qs) fs)
    {t : Tree Content} (ht : Disjunction text ls t) :
    ∃ item, root = some item ∧ said item = t ∧ (ps ++ qs).Perm item.preorder ∧
      es ++ fs = known.faultsOf ls := by
  obtain ⟨hitems, hps, rfl⟩ := h.read ht.reads
  obtain ⟨item, hroot, hsaid, hperm, rfl⟩ := (hcomposed hitems).derived t ht
  exact ⟨item, hroot, hsaid, (hps.append_right qs).trans hperm, List.append_nil _⟩

/-- A group around lexemes: the work that is left when their items are there. -/
theorem group_makes {inner : List Lexeme} {items : List Item} {ps : List Place}
    {es : List QueryError} (token : Token) (h : SpelledAll known text inner items ps es) :
    Makes known
      (do
        match ← compose text items with
        | none => return none
        | some child => return some ((← add .group token false).withOperands [child]))
      fun item? qs fs => Spelled known text (.group inner token) item? (ps ++ qs) (es ++ fs) := by
  refine (composed_makes inner items).bind ?_
  intro root qs fs hcomposed
  have hreadable : IsFilled (.group inner token) → Clean (es ++ fs) →
      ∃ t, Reads text (.group inner token) t := by
    intro hfilled hclean
    rcases h.derivable hcomposed hfilled.2 hclean with rfl | ⟨t, ht⟩
    · exact absurd rfl hfilled.1
    · exact ⟨_, reads_group.mpr ⟨t, ht, rfl⟩⟩
  cases root with
  | none =>
      refine .pure ⟨fun t ht => ?_, by simpa using hreadable⟩
      obtain ⟨u, hu, rfl⟩ := reads_group.mp ht
      obtain ⟨item, hroot, -⟩ := h.derived hcomposed hu
      cases hroot
  | some child =>
      refine Makes.bind (add_makesItem rfl) ?_
      rintro item rs gs ⟨hitem, hrs, rfl⟩
      refine .pure ⟨fun t ht => ?_, by simpa using hreadable⟩
      obtain ⟨u, hu, rfl⟩ := reads_group.mp ht
      obtain ⟨_, hroot, hsaid, hperm, hfaults⟩ := h.derived hcomposed hu
      obtain rfl := Option.some.inj hroot
      refine ⟨item.withOperands [child], rfl, ?_, ?_, ?_⟩
      · rw [said_withOperands, content_of_said hitem, ← hsaid]
        rfl
      · rw [preorder_withOperands_of_leaf hitem]
        simpa using List.perm_append_comm.trans (hrs.append hperm)
      · rw [Knowledge.faults, ← hfaults]
        simp

mutual

/-- A lexeme is drafted to an item that spells it. -/
theorem addLexeme_makes : (l : Lexeme) →
    Makes known (addLexeme known text l) (Spelled known text l)
  | .group inner token => by
      rw [addLexeme]
      exact (addLexemes_makes inner).bind fun items ps es h => group_makes token h
  | .and token => spelled_makes (add_makesItem rfl).returned (.and token) (by simp)
  | .or token => spelled_makes (add_makesItem rfl).returned (.or token) (by simp)
  | .not token => spelled_makes (add_makesItem rfl).returned (.not token) (by simp)
  | .nested block =>
      spelled_makes (addNested_makes text block) (.operand (.nested block)) (by simp)
  | .filter f none token =>
      spelled_makes (addFilter_makes f token).returned (.operand (.filter f token)) (by simp)
  | .filter f (some block) token =>
      spelled_makes (addNestedFilter_makes f block token).returned
        (.operand (.nestedFilter f block token)) (by simp)
  | .toggle name token => by
      refine spelled_makes ?_ (.operand (.toggle name token)) (by simp)
      rw [addLexeme, MakesSome]
      refine Reports.bind (remember_reports ?_) fun _ => ?_
      · exact fun _ => ⟨rfl, rfl⟩
      · exact (add_makesItem rfl).returned
  | .comment content token => by
      refine spelled_makes ?_ (.operand (.comment content token)) (by simp)
      rw [addLexeme, MakesSome]
      refine Reports.bind (remember_reports ?_) fun _ => ?_
      · exact fun _ => ⟨rfl, rfl⟩
      · exact (add_makesItem rfl).returned
  | .word s token =>
      spelled_makes (add_makesItem rfl).returned (.operand (.word s token)) (by simp)

/-- Lexemes are drafted to items that spell them. -/
theorem addLexemes_makes : (ls : List Lexeme) →
    Makes known (addLexemes known text ls) (SpelledAll known text ls)
  | [] => by
      rw [addLexemes]
      exact .pure ⟨fun _ => ⟨.nil, .refl _, rfl⟩, fun _ _ => by simp⟩
  | l :: ls => by
      rw [addLexemes]
      refine (addLexeme_makes l).bind fun item? ps es hl => ?_
      refine (addLexemes_makes ls).bind fun items qs fs hls => ?_
      exact .pure (by simpa using hl.cons hls)

end

/-- The item that the lexemes of a text make up. -/
theorem whole_makes (ls : List Lexeme) :
    Makes known (do compose text (← addLexemes known text ls)) fun root ps es =>
      (∀ t, Disjunction text ls t → ∃ item, root = some item ∧ said item = t ∧
        ps.Perm item.preorder ∧ es = known.faultsOf ls) ∧
      (ls = [] → root = none ∧ es = []) ∧
      (AllFilled ls → Clean es → ls = [] ∨ ∃ t, Disjunction text ls t) := by
  refine (addLexemes_makes ls).bind fun items ps es h => ?_
  refine (composed_makes ls items).mono fun root qs fs hcomposed => ⟨?_, ?_, ?_⟩
  · exact fun t ht => h.derived hcomposed ht
  · rintro rfl
    obtain ⟨hitems, -, rfl⟩ := h.read (by simp)
    obtain ⟨hroot, rfl⟩ := (hcomposed hitems).empty rfl
    exact ⟨hroot, rfl⟩
  · exact fun hfilled hclean => h.derivable hcomposed hfilled hclean

/-- The graph of a derivable text, before and after linking. -/
theorem Drafted.holds {d d' : Draft} {item : Item} {ps : List Place} {es : List QueryError}
    (h : Drafted known d d' ps es) (hps : ps.Perm item.preorder) :
    Holds ((link d'.graph item).setRoot (some item.label.id)) (spots item) ∧
      ∀ s ∈ (spots item).preorder, s.skipped = known.skips s.kind := by
  have hdrafted := h.perm hps
  have hids : indices (spots item) = item.preorder.map (·.id) := by
    rw [indices, Tree.preorder_map, List.map_map]
    rfl
  have hnodup : (indices (spots item)).Nodup := hids ▸ hdrafted.nodup
  have hloose : Loose d'.graph (spots item) := by
    intro s hs
    rw [Tree.preorder_map] at hs
    obtain ⟨p, hp, rfl⟩ := List.mem_map.mp hs
    obtain ⟨hbound, hnode, hshape⟩ := hdrafted.stored p hp
    have hskipped : p.node.skipped = known.skips p.kind := congrArg Node.skipped hshape
    refine ⟨hbound, hnode.trans ?_⟩
    rw [Spot.node, Place.spot, hskipped]
    exact hshape
  have hheld := (link_linked item hloose hnodup).laid.holds_setRoot hnodup
  rw [rootId_spots] at hheld
  refine ⟨hheld, fun s hs => ?_⟩
  rw [Tree.preorder_map] at hs
  obtain ⟨p, hp, rfl⟩ := List.mem_map.mp hs
  exact congrArg Node.skipped (hdrafted.stored p hp).2.2

/-- The run behind the draft of a text. -/
theorem ofLexemes_run (known : Knowledge) (text : String) (ls : List Lexeme) :
    ∃ root d ps es, Drafted known {} d ps es ∧
      (∀ t, Disjunction text ls t → ∃ item, root = some item ∧ said item = t ∧
        ps.Perm item.preorder ∧ es = known.faultsOf ls) ∧
      (ls = [] → root = none ∧ es = []) ∧
      (AllFilled ls → Clean es → ls = [] ∨ ∃ t, Disjunction text ls t) ∧
      ofLexemes known text ls = match root with
        | none => d
        | some t => { d with graph := (link d.graph t).setRoot (some t.label.id) } := by
  obtain ⟨ps, es, hdrafted, hderived, hempty, hderivable⟩ := @whole_makes known text ls {}
  exact ⟨_, _, ps, es, hdrafted, hderived, hempty, hderivable, rfl⟩

/-- What holds of the errors that are reported on the way holds of those of the
draft. -/
theorem ofLexemes_errors {ls : List Lexeme} {p : List QueryError → Prop}
    (h : Makes known (do compose text (← addLexemes known text ls)) fun _ _ es => p es) :
    p (ofLexemes known text ls).errors := by
  obtain ⟨ps, es, hdrafted, hes⟩ := h {}
  have herrors : p ((do compose text (← addLexemes known text ls)).run {}).2.errors := by
    rw [hdrafted.errors]
    exact hes
  unfold ofLexemes
  dsimp only
  generalize StateT.run (do compose text (← addLexemes known text ls)) {} = built at herrors ⊢
  obtain ⟨root, d⟩ := built
  cases root with
  | none => exact herrors
  | some t => exact herrors

/-- **Derivable lexemes give their tree.**  The draft holds it, marks the nodes
that are left out of evaluation, and reports the errors about the names in
it. -/
theorem ofLexemes_derived {ls : List Lexeme} {t : Tree Content} (ht : Disjunction text ls t) :
    ∃ s, Holds (ofLexemes known text ls).graph s ∧ s.map Spot.content = t ∧
      (∀ spot ∈ s.preorder, spot.skipped = known.skips spot.kind) ∧
      (ofLexemes known text ls).errors = known.faultsOf ls := by
  obtain ⟨root, d, ps, es, hdrafted, hderived, -, -, heq⟩ := ofLexemes_run known text ls
  obtain ⟨item, rfl, hsaid, hps, rfl⟩ := hderived t ht
  obtain ⟨hholds, hskipped⟩ := hdrafted.holds hps
  rw [heq]
  refine ⟨spots item, hholds, ?_, hskipped, ?_⟩
  · rw [← hsaid, Tree.map_map]
    rfl
  · exact hdrafted.errors

/-- A text without lexemes gives an empty draft. -/
theorem ofLexemes_nil : (ofLexemes known text []).graph.root = none ∧
    (ofLexemes known text []).errors = [] := by
  obtain ⟨root, d, ps, es, hdrafted, -, hempty, -, heq⟩ := ofLexemes_run known text []
  obtain ⟨rfl, rfl⟩ := hempty rfl
  rw [heq]
  exact ⟨hdrafted.root, hdrafted.errors⟩

/-- **Lexemes without an error of syntax are derivable.** -/
theorem derivable_of_clean {ls : List Lexeme} (hfilled : AllFilled ls)
    (hclean : Clean (ofLexemes known text ls).errors) : ls = [] ∨ ∃ t, Disjunction text ls t := by
  obtain ⟨root, d, ps, es, hdrafted, -, -, hderivable, heq⟩ := ofLexemes_run known text ls
  refine hderivable hfilled fun e he => hclean e ?_
  have herrors : d.errors = es := hdrafted.errors
  rw [heq]
  cases root with
  | none => exact herrors ▸ he
  | some t => exact herrors ▸ he

end Draft

end FilterQuery
