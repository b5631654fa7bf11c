import FilterQuery.Proofs.Drafting
import FilterQuery.Proofs.Lowering

/-!
# Views of a draft

Where a lexeme stands in the text shows in the tokens of a draft and nowhere
else.  What is known about the names in a query shows in the errors of meaning
and in the marks of the nodes to be skipped, and nowhere else either.  A view
leaves one of these out, or both: what it shows of the draft is the draft of
what it shows of the lexemes, for the knowledge that it leaves.  So two drafts
look the same if their lexemes do.
-/

namespace FilterQuery

open FilterQuery.Graph (Item Place)

/-- What is seen of lexemes and drafts. -/
structure View where
  /-- The places in the text. -/
  tokens : Bool
  /-- What is said about names. -/
  verdicts : Bool

/-- Takes every name for known. -/
def Knowledge.trusting : Knowledge where
  judge _ _ := {}
  resolvesNested := true
  hasAggregator _ := true

namespace View

variable (v : View)

def knowledge (known : Knowledge) : Knowledge := if v.verdicts then known else .trusting

def text (text : String) : String := if v.tokens then text else ""

def token (t : Token) : Token := if v.tokens then t else {}

def block (b : NestedBlock) : NestedBlock := { b with token := v.token b.token }

mutual

def lexeme : Lexeme → Lexeme
  | .group inner t => .group (lexemes inner) (v.token t)
  | .and t => .and (v.token t)
  | .or t => .or (v.token t)
  | .not t => .not (v.token t)
  | .nested b => .nested (v.block b)
  | .filter f b t => .filter f (b.map v.block) (v.token t)
  | .toggle name t => .toggle name (v.token t)
  | .comment content t => .comment content (v.token t)
  | .word s t => .word s (v.token t)

def lexemes : List Lexeme → List Lexeme
  | [] => []
  | l :: ls => lexeme l :: lexemes ls

end

def error (e : QueryError) : QueryError :=
  if v.tokens then e else { e with index := 0, length := 0 }

/-- Errors of meaning are seen with the verdicts, all others in any case. -/
def errors (es : List QueryError) : List QueryError :=
  (es.filter fun e => v.verdicts || e.isFatal).map v.error

def node (n : Node) : Node where
  kind := n.kind
  token := v.token n.token
  children := n.children
  parent := n.parent
  skipped := if v.verdicts then n.skipped else Knowledge.trusting.skips n.kind

def place (p : Place) : Place := ⟨p.id, v.node p.node⟩

def item (i : Item) : Item := i.map v.place

def graph (g : Graph) : Graph := { g with nodes := g.nodes.map v.node }

def draft (d : Draft) : Draft := { d with graph := v.graph d.graph, errors := v.errors d.errors }

variable {v} {known : Knowledge}

/-- An error is seen at the token as it is seen. -/
theorem error_about (cause : Cause) (t : Token) :
    v.error (QueryError.about cause t) = QueryError.about cause (v.token t) := by
  rw [error, token]
  split <;> rfl

/-- Errors are seen one by one. -/
theorem errors_append (es fs : List QueryError) :
    v.errors (es ++ fs) = v.errors es ++ v.errors fs := by
  rw [errors, List.filter_append, List.map_append]
  rfl

/-- Faults of syntax are all seen. -/
theorem errors_of_syntactic {es : List QueryError} (h : ∀ e ∈ es, e.kind = .syntactic) :
    v.errors es = es.map v.error := by
  rw [errors, List.filter_eq_self.mpr]
  intro e he
  rw [QueryError.isFatal, h e he]
  exact Bool.or_true _

/-- A view without verdicts sees no fault of meaning. -/
theorem errors_of_semantic {es : List QueryError} (h : ∀ e ∈ es, e.kind = .semantic)
    (hv : v.verdicts = false) : v.errors es = [] := by
  rw [errors, List.filter_eq_nil_iff.mpr, List.map_nil]
  intro e he
  rw [hv, QueryError.isFatal, h e he]
  decide

/-- A view with verdicts sees all errors. -/
theorem errors_of_verdicts (hv : v.verdicts = true) (es : List QueryError) :
    v.errors es = es.map v.error := by
  simp [errors, hv]

/-- A block has the same fault with its aggregator, as it is seen. -/
theorem aggregatorFaults_block (b : NestedBlock) :
    known.aggregatorFaults (v.block b) = (known.aggregatorFaults b).map v.error := by
  simp only [Knowledge.aggregatorFaults, block, List.map_map]
  exact List.map_congr_left fun _ _ => (error_about _ _).symm

/-- A filter has the same fault, at its token as it is seen. -/
theorem filterFaults_token (f : FilterExpression) (nested : Bool) (t : Token) :
    known.filterFaults f nested (v.token t) = (known.filterFaults f nested t).map v.error := by
  simp only [Knowledge.filterFaults, List.map_map]
  exact List.map_congr_left fun _ _ => (error_about _ _).symm

/-- The errors about a name are seen as the errors about the name that is
seen. -/
theorem errors_faults (hknown : known.IsSemantic) {l : Lexeme}
    (hl : ∀ inner t, l ≠ .group inner t) :
    v.errors (known.faults l) = (v.knowledge known).faults (v.lexeme l) := by
  cases hv : v.verdicts with
  | false =>
      rw [errors_of_semantic (known.faults_semantic hknown l) hv, knowledge, if_neg (by simp [hv])]
      cases l with
      | group inner t => exact absurd rfl (hl inner t)
      | filter f b t => cases b <;> simp [lexeme, Knowledge.faults, Knowledge.trusting,
          Knowledge.filterFaults, Knowledge.aggregatorFaults]
      | nested b => simp [lexeme, Knowledge.faults, Knowledge.trusting, Knowledge.aggregatorFaults]
      | _ => simp [lexeme, Knowledge.faults]
  | true =>
      rw [errors_of_verdicts hv, knowledge, if_pos hv]
      cases l with
      | group inner t => exact absurd rfl (hl inner t)
      | nested b =>
          rw [lexeme, Knowledge.faults, Knowledge.faults, aggregatorFaults_block]
          split <;> simp [error_about, block]
      | filter f b t =>
          cases b with
          | none => rw [lexeme, Option.map_none, Knowledge.faults, Knowledge.faults,
              filterFaults_token]
          | some b =>
              rw [lexeme, Option.map_some, Knowledge.faults, Knowledge.faults, filterFaults_token,
                aggregatorFaults_block]
              split <;> simp [error_about, block]
      | _ => simp [lexeme, Knowledge.faults]

/-- A node of the graph is seen as it stands. -/
theorem node_graph (g : Graph) (i : NodeId) : (v.graph g).node i = v.node (g.node i) := by
  have hdefault : v.node { kind := .group, token := {} } = { kind := .group, token := {} } := by
    simp [node, token, Knowledge.skips]
  simp only [graph, Graph.node, Array.getD_eq_getD_getElem?, Array.getElem?_map]
  cases g.nodes[i]? with
  | none => exact hdefault.symm
  | some n => rfl

/-- A change that is seen alike may be made before the view or behind it. -/
theorem graph_update {f : Node → Node} (h : ∀ n, v.node (f n) = f (v.node n)) (g : Graph)
    (i : NodeId) : v.graph (g.update i f) = (v.graph g).update i f := by
  have hnodes : (g.nodes.modify i f).map v.node = (g.nodes.map v.node).modify i f := by
    refine Array.ext (by simp) fun j hj hj' => ?_
    simp only [Array.getElem_map, Array.getElem_modify]
    split <;> simp [h]
  simp only [graph, Graph.update, hnodes]

theorem graph_setParent (g : Graph) (i : NodeId) (parent : Option NodeId) :
    v.graph (g.setParent i parent) = (v.graph g).setParent i parent :=
  graph_update (by intro _; rfl) g i

theorem graph_setChildren (g : Graph) (i : NodeId) (children : List NodeId) :
    v.graph (g.setChildren i children) = (v.graph g).setChildren i children :=
  graph_update (by intro _; rfl) g i

/-- The view leaves all links. -/
theorem children_graph (g : Graph) (i : NodeId) : (v.graph g).children i = g.children i := by
  rw [Graph.children, node_graph]
  rfl

theorem graph_addChild (g : Graph) (parent child : NodeId) :
    v.graph (g.addChild parent child) = (v.graph g).addChild parent child := by
  rw [Graph.addChild, Graph.addChild, graph_setParent, graph_setChildren, children_graph]

theorem graph_setRoot (g : Graph) (root : Option NodeId) :
    v.graph (g.setRoot root) = (v.graph g).setRoot root := by
  cases root with
  | none => rfl
  | some i =>
      rw [Graph.setRoot, Graph.setRoot, ← graph_setParent]
      rfl

/-- What a node unfolds to is seen place by place. -/
theorem unfoldFrom_graph (g : Graph) (fuel : Nat) (i : NodeId) :
    (v.graph g).unfoldFrom fuel i = (g.unfoldFrom fuel i).map v.place := by
  induction fuel generalizing i with
  | zero => rw [Graph.unfoldFrom, Graph.unfoldFrom, node_graph]; rfl
  | succ fuel ih =>
      rw [Graph.unfoldFrom, Graph.unfoldFrom, Tree.map_node, node_graph, children_graph,
        List.map_map]
      congr 1
      exact List.map_congr_left fun j _ => ih j

/-- The tree of a graph is seen place by place. -/
theorem tree?_graph (g : Graph) : (v.graph g).tree? = g.tree?.map (Tree.map v.place) := by
  have hunfold : ∀ i, (v.graph g).unfold i = (g.unfold i).map v.place := by
    intro i
    rw [Graph.unfold, Graph.unfold, unfoldFrom_graph, graph, Array.size_map]
  rw [Graph.tree?, Graph.tree?, Option.map_map]
  exact congrArg (g.root.map ·) (funext hunfold)

theorem label_item (i : Item) : (v.item i).label = v.place i.label := Tree.label_map _ _

/-- Operands are seen one by one. -/
theorem item_withOperands (i : Item) (operands : List Item) :
    v.item (i.withOperands operands) = (v.item i).withOperands (operands.map v.item) := by
  rw [item, Item.withOperands, Tree.map_node, Item.withOperands, label_item]
  rfl

mutual

/-- Linking an item may come before the view or behind it. -/
theorem graph_link : ∀ (i : Item) (g : Graph),
    v.graph (Draft.link g i) = Draft.link (v.graph g) (v.item i)
  | .node p is, g => by
      rw [item, Tree.map_node, Draft.link, Draft.link, graph_linkAll]
      rfl

/-- Linking items may come before the view or behind it. -/
theorem graph_linkAll : ∀ (is : List Item) (parent : NodeId) (g : Graph),
    v.graph (Draft.linkAll parent g is) = Draft.linkAll parent (v.graph g) (is.map v.item)
  | [], _, _ => rfl
  | i :: is, parent, g => by
      rw [List.map_cons, Draft.linkAll, Draft.linkAll, graph_linkAll, graph_addChild, graph_link,
        label_item]
      rfl

end

theorem kind_item (i : Item) : (v.item i).kind = i.kind := by
  rw [Item.kind, label_item]
  rfl

theorem token_item (i : Item) : (v.item i).token = v.token i.token := by
  rw [Item.token, label_item]
  rfl

/-- The view leaves what an item waits for. -/
theorem isWaiting_item (i : Item) : (v.item i).isWaiting = i.isWaiting := by
  have hchildren : (v.item i).children = i.children.map v.item := Tree.children_map _ _
  rw [Item.isWaiting, Item.isWaiting, kind_item, hchildren]
  cases i.children <;> rfl

/-- The view leaves which items are operands. -/
theorem isOperand_item (i : Item) : (v.item i).isOperand = i.isOperand := by
  rw [Item.isOperand, Item.isOperand, isWaiting_item]

/-- The view leaves which items are neighbours. -/
theorem isAdjacent_item (i j : Item) : (v.item i).isAdjacent (v.item j) = i.isAdjacent j := by
  rw [Item.isAdjacent, Item.isAdjacent, isOperand_item, isWaiting_item, kind_item]

/-- The same operands are missing, as it is seen. -/
theorem missingOperands_item (i : Item) (left right : Option Item) :
    Graph.missingOperands (v.item i) (left.map v.item) (right.map v.item) =
      (Graph.missingOperands i left right).map v.error := by
  simp only [Graph.missingOperands, List.map_append, kind_item, token_item, Option.isNone_map]
  split <;> split <;> simp [error_about]

/-- The first operand is the same, as it is seen. -/
theorem headOperand?_item (is : List Item) :
    Graph.headOperand? (is.map v.item) = (Graph.headOperand? is).map v.item := by
  cases is with
  | nil => rfl
  | cons i is => simp [Graph.headOperand?, Option.filter, isOperand_item, apply_ite]

section Noted

variable {β γ δ ε : Type} {see : β → γ} {see' : δ → ε}

/-- A value and the errors noted with it, as they are seen. -/
def noted (v : View) (see : β → γ) (x : Noted QueryError β) : Noted QueryError γ :=
  ⟨see x.value, x.notes.map v.error⟩

theorem noted_pure (b : β) : v.noted see (pure b) = pure (see b) := rfl

/-- What follows a noted value is seen behind it. -/
theorem noted_bind (x : Noted QueryError β) {next : β → Noted QueryError δ}
    {next' : γ → Noted QueryError ε} (h : ∀ b, next' (see b) = v.noted see' (next b)) :
    v.noted see x >>= next' = v.noted see' (x >>= next) := by
  have hboth : v.noted see x >>= next' =
      ⟨(next' (see x.value)).value, x.notes.map v.error ++ (next' (see x.value)).notes⟩ := rfl
  rw [hboth, h, noted, noted, Noted.value_bind, Noted.notes_bind, List.map_append]

end Noted

theorem noted_noteAll (es : List QueryError) :
    v.noted id (Noted.noteAll es) = Noted.noteAll (es.map v.error) := rfl

/-- Negating may come before the view or behind it. -/
theorem combineNot_item (is : List Item) :
    Graph.combineNot (is.map v.item) = v.noted (List.map v.item) (Graph.combineNot is) := by
  induction is with
  | nil => rfl
  | cons i is ih =>
      rw [List.map_cons, Graph.combineNot, Graph.combineNot, ih]
      refine noted_bind _ fun is' => ?_
      rw [kind_item, isWaiting_item]
      split
      · cases is' with
        | nil => simp [Noted.noting, noted, error_about, token_item]
        | cons operand more =>
            simp only [List.map_cons, isOperand_item]
            split
            · simp [noted_pure, item_withOperands]
            · simp [Noted.noting, noted, error_about, token_item]
      · rfl

/-- Combining two by two may come before the view or behind it. -/
theorem combineBinaryFrom_item (kind : NodeKind) (done is : List Item) :
    Graph.combineBinaryFrom kind (done.map v.item) (is.map v.item) =
      v.noted (List.map v.item) (Graph.combineBinaryFrom kind done is) := by
  fun_induction Graph.combineBinaryFrom kind done is with
  | case1 done => simp [Graph.combineBinaryFrom, noted_pure]
  | case2 done i h =>
      have hmissing := missingOperands_item (v := v) i (Graph.headOperand? done) none
      rw [Option.map_none] at hmissing
      simp only [List.map_cons, List.map_nil, Graph.combineBinaryFrom, kind_item, isWaiting_item,
        if_pos h, headOperand?_item, hmissing, noted, List.map_reverse]
  | case3 done i h =>
      simp only [List.map_cons, List.map_nil, Graph.combineBinaryFrom, kind_item, isWaiting_item,
        if_neg h]
      simp [noted_pure]
  | case4 done i next rest h left right hright hleft ih =>
      have hnext := headOperand?_item (v := v) [next]
      rw [List.map_singleton, hright, Option.map_some] at hnext
      simp only [List.map_cons, Graph.combineBinaryFrom, kind_item, isWaiting_item, if_pos h,
        headOperand?_item, hleft, hnext, Option.map_some]
      simpa [item_withOperands] using ih
  | case5 done i next rest h hnone ih =>
      have hnext := headOperand?_item (v := v) [next]
      rw [List.map_singleton] at hnext
      have hnoted : (do
          Noted.noteAll (Graph.missingOperands (v.item i) ((Graph.headOperand? done).map v.item)
            ((Graph.headOperand? [next]).map v.item))
          Graph.combineBinaryFrom kind (done.map v.item) ((next :: rest).map v.item)) =
          v.noted (List.map v.item) (do
            Noted.noteAll (Graph.missingOperands i (Graph.headOperand? done)
              (Graph.headOperand? [next]))
            Graph.combineBinaryFrom kind done (next :: rest)) := by
        rw [missingOperands_item, ← noted_noteAll]
        exact noted_bind _ fun _ => ih
      simp only [List.map_cons, Graph.combineBinaryFrom, kind_item, isWaiting_item, if_pos h,
        headOperand?_item, hnext]
      split
      · next hleft hright =>
          obtain ⟨left, hleft, -⟩ := Option.map_eq_some_iff.mp hleft
          obtain ⟨right, hright, -⟩ := Option.map_eq_some_iff.mp hright
          exact absurd hright (hnone left right hleft)
      · exact hnoted
  | case6 done i next rest h ih =>
      simp only [List.map_cons, Graph.combineBinaryFrom, kind_item, isWaiting_item, if_neg h]
      simpa using ih

/-- **Combining may come before the view or behind it.** -/
theorem combine_item (is : List Item) :
    Graph.combine (is.map v.item) = v.noted (Option.map v.item) (Graph.combine is) := by
  have hitems : Graph.combineItems (is.map v.item) =
      v.noted (List.map v.item) (Graph.combineItems is) := by
    rw [Graph.combineItems, Graph.combineItems, combineNot_item]
    refine noted_bind _ fun negated => ?_
    have hconjoined := combineBinaryFrom_item (v := v) .and [] negated
    rw [List.map_nil] at hconjoined
    rw [hconjoined]
    exact noted_bind _ fun conjoined => combineBinaryFrom_item .or [] conjoined
  have hextra : ∀ left : List Item, Graph.extraNotes (left.map v.item) =
      (Graph.extraNotes left).map v.error
    | [] | [_] => rfl
    | _ :: extra :: _ => by
        rw [List.map_cons, List.map_cons, Graph.extraNotes, Graph.extraNotes, List.map_singleton,
          error_about, token_item]
  have hcombine : ∀ is : List Item, Graph.combine is = ⟨(Graph.combineItems is).value.head?,
      (Graph.combineItems is).notes ++ Graph.extraNotes (Graph.combineItems is).value⟩ := by
    intro is
    rw [← Graph.value_combine, ← Graph.notes_combine]
  rw [hcombine, hcombine, hitems, noted, noted, hextra, List.head?_map, List.map_append]

/-- On the draft that is seen, the second work gives what is seen of the result
of the first. -/
def Shows {β γ : Type} (v : View) (see : β → γ) (work : Drafting β) (work' : Drafting γ) : Prop :=
  ∀ d, work'.run (v.draft d) = (see (work.run d).1, v.draft (work.run d).2)

namespace Shows

variable {β γ δ ε : Type} {see : β → γ} {see' : δ → ε}

theorem pure (b : β) : v.Shows see (pure b) (pure (see b)) := fun _ => rfl

/-- Work that is shown by other work may be followed by more of it. -/
theorem bind {work : Drafting β} {work' : Drafting γ} {next : β → Drafting δ}
    {next' : γ → Drafting ε} (h : v.Shows see work work')
    (hnext : ∀ b, v.Shows see' (next b) (next' (see b))) :
    v.Shows see' (work >>= next) (work' >>= next') := by
  intro d
  rw [StateT.run_bind, StateT.run_bind, h]
  exact hnext _ _

/-- Taking over what is noted is shown by taking over what is seen of it. -/
theorem absorb {x : Noted QueryError β} {x' : Noted QueryError γ} (hvalue : x'.value = see x.value)
    (hnotes : x'.notes = v.errors x.notes) :
    v.Shows see (Draft.absorb x) (Draft.absorb x') := by
  intro d
  have hrun : ∀ {β : Type} (x : Noted QueryError β) d,
      (Draft.absorb x).run d = (x.value, { d with errors := d.errors ++ x.notes }) :=
    fun _ _ => rfl
  simp only [hrun, draft, hvalue, hnotes, errors_append]

end Shows

/-- Adding a node appends it to the graph and gives an item for it. -/
theorem run_add (kind : NodeKind) (t : Token) (skipped : Bool) (d : Draft) :
    (Draft.add kind t skipped).run d =
      (.leaf ⟨d.graph.nodes.size, { kind, token := t, skipped }⟩,
        { d with graph := { d.graph with
          nodes := d.graph.nodes.push { kind, token := t, skipped } } }) := by
  let added : Graph := { d.graph with nodes := d.graph.nodes.push { kind, token := t, skipped } }
  have hadded : (if skipped then
      (d.graph.add kind t).1.update d.graph.nodes.size ({ · with skipped := true })
      else (d.graph.add kind t).1) = added := by
    cases skipped with
    | false => rfl
    | true =>
        have hnodes : (d.graph.nodes.push { kind, token := t }).modify d.graph.nodes.size
            ({ · with skipped := true }) = added.nodes := by
          refine Array.ext (by simp [added]) fun i hi hi' => ?_
          have hlast : i < d.graph.nodes.size + 1 := by simpa [added] using hi'
          simp only [Array.getElem_modify, Array.getElem_push, added]
          split <;> split <;> first | omega | rfl
        exact congrArg (fun nodes => { d.graph with nodes }) hnodes
  have hnode : added.node d.graph.nodes.size = { kind, token := t, skipped } := by
    simp [added, Graph.node]
  have hrun : (Draft.add kind t skipped).run d =
      (.leaf ⟨d.graph.nodes.size, added.node d.graph.nodes.size⟩, { d with graph := added }) := by
    rw [← hadded]
    cases skipped <;> rfl
  rw [hrun, hnode]

/-- Work that does not look at what a view leaves out. -/
theorem remember_shows {f : Draft → Draft} (hf : ∀ d, f (v.draft d) = v.draft (f d)) :
    v.Shows id (modify f : Drafting PUnit) (modify f) := by
  intro d
  have hrun : ∀ d, StateT.run (modify f : Drafting PUnit) d = (⟨⟩, f d) := fun _ => rfl
  rw [hrun, hrun, hf]

/-- Adding a node is shown by adding it with its token as it is seen. -/
theorem add_shows {kind : NodeKind} {t : Token} {skipped skipped' : Bool}
    (h : skipped' = if v.verdicts then skipped else Knowledge.trusting.skips kind) :
    v.Shows v.item (Draft.add kind t skipped) (Draft.add kind (v.token t) skipped') := by
  intro d
  simp only [run_add, draft, graph, Array.map_push, Array.size_map, h]
  rfl

/-- A node that is marked in no case. -/
theorem add_unmarked_shows {kind : NodeKind} {t : Token}
    (h : Knowledge.trusting.skips kind = false) :
    v.Shows v.item (Draft.add kind t false) (Draft.add kind (v.token t) false) :=
  add_shows (by simp [h])

/-- Taking operands is shown by taking them as they are seen. -/
theorem withOperands_shows {work work' : Drafting Item} {operands : List Item}
    (h : v.Shows v.item work work') :
    v.Shows v.item (do return (← work).withOperands operands)
      (do return (← work').withOperands (operands.map v.item)) :=
  h.bind fun i => item_withOperands i operands ▸ .pure _

/-- Adding a block is shown by adding it as it is seen. -/
theorem addBlock_shows (b : NestedBlock) (filter : Option String) :
    v.Shows v.item (Draft.addBlock b filter) (Draft.addBlock (v.block b) filter) := by
  unfold Draft.addBlock
  refine (add_unmarked_shows rfl).bind fun query => ?_
  rw [block]
  dsimp only
  cases b.aggregator with
  | none => exact .pure query
  | some name => exact withOperands_shows (add_unmarked_shows rfl)

/-- Reports several errors. -/
def reportAll (es : List QueryError) : Drafting Unit := Draft.absorb ⟨(), es⟩

theorem reportAll_nil : reportAll [] = pure () := by
  refine StateT.ext fun d => ?_
  have hrun : (reportAll []).run d = ((), { d with errors := d.errors ++ [] }) := rfl
  rw [hrun, List.append_nil]
  rfl

/-- Errors are reported one after the other. -/
theorem reportAll_append (es fs : List QueryError) :
    reportAll (es ++ fs) = (do reportAll es; reportAll fs) := by
  refine StateT.ext fun d => ?_
  have hrun : (reportAll (es ++ fs)).run d = ((), { d with errors := d.errors ++ (es ++ fs) }) :=
    rfl
  rw [hrun, ← List.append_assoc]
  rfl

/-- Checking an aggregator reports the fault that is known of it. -/
theorem checkAggregator_eq (b : NestedBlock) :
    Draft.checkAggregator known b = reportAll (known.aggregatorFaults b) := by
  rw [Draft.checkAggregator, Knowledge.aggregatorFaults]
  cases b.aggregator with
  | none => exact reportAll_nil.symm
  | some name =>
      simp only [Option.toList_some, List.filter_cons, List.filter_nil]
      split
      · rfl
      · exact reportAll_nil.symm

/-- A nested query is added, and what is wrong with it is reported. -/
theorem addNested_eq (text : String) (b : NestedBlock) :
    Draft.addLexeme known text (.nested b) = (do
      let i ← Draft.addBlock b none
      reportAll (known.faults (.nested b))
      return some i) := by
  rw [Draft.addLexeme, Knowledge.faults]
  refine bind_congr fun i => ?_
  split
  · rw [checkAggregator_eq]
  · rfl

/-- A filter is added, and what is wrong with it is reported. -/
theorem addFilter_eq (f : FilterExpression) (t : Token) :
    Draft.addFilter known f none t = (do
      let i ← Draft.add (.filter f) t (known.judge f false).skipped
      reportAll (known.faults (.filter f none t))
      return i) := by
  rw [Draft.addFilter, Knowledge.faults, Knowledge.filterFaults]
  refine bind_congr fun i => ?_
  simp only [Option.isSome_none]
  cases (known.judge f false).cause with
  | none => rw [Option.toList_none, List.map_nil, reportAll_nil]; rfl
  | some cause => rfl

/-- A filter with a nested query is added, and then its block under it. -/
theorem addNestedFilter_eq (f : FilterExpression) (b : NestedBlock) (t : Token) :
    Draft.addFilter known f (some b) t = (do
      let i ← Draft.add (.nestedFilter f) t (known.resolvesNested && (known.judge f true).skipped)
      let value ← Draft.addBlock b (some f.name)
      reportAll (known.faults (.filter f (some b) t))
      return i.withOperands [value]) := by
  rw [Draft.addFilter, Knowledge.faults, Knowledge.filterFaults]
  refine bind_congr fun i => bind_congr fun value => ?_
  simp only [Option.isSome_some]
  split
  · rw [reportAll_append, checkAggregator_eq]
    cases (known.judge f true).cause with
    | none => rw [Option.toList_none, List.map_nil, reportAll_nil]; rfl
    | some cause => rfl
  · rfl

/-- The errors about a name do not look different if they are reported about
what is seen of it. -/
theorem faults_shows (hknown : known.IsSemantic) {l : Lexeme}
    (hl : ∀ inner t, l ≠ .group inner t) :
    v.Shows id (reportAll (known.faults l)) (reportAll ((v.knowledge known).faults (v.lexeme l))) :=
  .absorb rfl (errors_faults hknown hl).symm

/-- Adding a filter is shown by adding it as it is seen. -/
theorem addFilter_shows (hknown : known.IsSemantic) (f : FilterExpression)
    (b : Option NestedBlock) (t : Token) :
    v.Shows v.item (Draft.addFilter known f b t)
      (Draft.addFilter (v.knowledge known) f (b.map v.block) (v.token t)) := by
  cases b with
  | none =>
      rw [Option.map_none, addFilter_eq, addFilter_eq]
      refine (add_shows ?_).bind fun i => ?_
      · rw [knowledge]
        split <;> rfl
      · exact (faults_shows hknown (l := .filter f none t) (by simp)).bind fun _ => .pure i
  | some b =>
      rw [Option.map_some, addNestedFilter_eq, addNestedFilter_eq]
      refine (add_shows ?_).bind fun i => (addBlock_shows b _).bind fun value => ?_
      · rw [knowledge]
        split <;> rfl
      · refine (faults_shows hknown (l := .filter f (some b) t) (by simp)).bind fun _ => ?_
        exact item_withOperands i [value] ▸ .pure _

/-- Filling a gap is shown by filling it as it is seen. -/
theorem addGap_shows (text : String) (left right : Item) :
    v.Shows v.item (Draft.addGap text left right)
      (Draft.addGap (v.text text) (v.item left) (v.item right)) := by
  have htoken : Token.ofRange (v.text text) (v.item left).token.stop (v.item right).token.position =
      v.token (Token.ofRange text left.token.stop right.token.position) := by
    rw [token_item, token_item, View.text, token, token, token]
    split
    · rfl
    · rfl
  rw [Draft.addGap, Draft.addGap, htoken]
  exact add_unmarked_shows rfl

/-- Joining neighbours is shown by joining them as they are seen. -/
theorem joinAdjacent_shows (text : String) (is : List Item) :
    v.Shows (List.map v.item) (Draft.joinAdjacent text is)
      (Draft.joinAdjacent (v.text text) (is.map v.item)) := by
  induction is with
  | nil => exact .pure []
  | cons left is ih =>
      cases is with
      | nil => exact .pure [left]
      | cons right rest =>
          rw [List.map_cons, List.map_cons, Draft.joinAdjacent, Draft.joinAdjacent,
            isAdjacent_item]
          split
          · exact (addGap_shows text left right).bind fun gap => ih.bind fun more => .pure _
          · exact ih.bind fun more => .pure _

/-- Composing items is shown by composing them as they are seen. -/
theorem compose_shows (text : String) (is : List Item) :
    v.Shows (Option.map v.item) (Draft.compose text is)
      (Draft.compose (v.text text) (is.map v.item)) := by
  refine (joinAdjacent_shows text is).bind fun joined => ?_
  rw [combine_item]
  exact .absorb rfl (errors_of_syntactic (Graph.combine_syntactic joined)).symm

/-- A node for a lexeme. -/
theorem add_returned_shows {work work' : Drafting Item} (h : v.Shows v.item work work') :
    v.Shows (Option.map v.item) (do return some (← work)) (do return some (← work')) :=
  h.bind fun i => .pure (some i)

mutual

/-- Drafting a lexeme is shown by drafting it as it is seen. -/
theorem addLexeme_shows (hknown : known.IsSemantic) (text : String) : ∀ l : Lexeme,
    v.Shows (Option.map v.item) (Draft.addLexeme known text l)
      (Draft.addLexeme (v.knowledge known) (v.text text) (v.lexeme l))
  | .group inner t => by
      rw [lexeme, Draft.addLexeme, Draft.addLexeme]
      refine (addLexemes_shows hknown text inner).bind fun is => ?_
      refine (compose_shows text is).bind fun root => ?_
      cases root with
      | none => exact .pure none
      | some child =>
          refine (add_unmarked_shows rfl).bind fun i => ?_
          exact item_withOperands i [child] ▸ .pure (some _)
  | .and t | .or t | .not t | .word s t => by
      rw [lexeme, Draft.addLexeme, Draft.addLexeme]
      exact add_returned_shows (add_unmarked_shows rfl)
  | .nested b => by
      rw [lexeme, addNested_eq, addNested_eq]
      refine (addBlock_shows b none).bind fun i => ?_
      exact (faults_shows hknown (l := .nested b) (by simp)).bind fun _ => .pure (some i)
  | .filter f b t => by
      rw [lexeme, Draft.addLexeme, Draft.addLexeme]
      exact add_returned_shows (addFilter_shows hknown f b t)
  | .toggle name t | .comment content t => by
      rw [lexeme, Draft.addLexeme, Draft.addLexeme]
      refine Shows.bind (remember_shows fun _ => rfl) fun _ => ?_
      exact add_returned_shows (add_shows (by simp [Knowledge.skips]))

/-- Drafting lexemes is shown by drafting them as they are seen. -/
theorem addLexemes_shows (hknown : known.IsSemantic) (text : String) : ∀ ls : List Lexeme,
    v.Shows (List.map v.item) (Draft.addLexemes known text ls)
      (Draft.addLexemes (v.knowledge known) (v.text text) (v.lexemes ls))
  | [] => .pure []
  | l :: ls => by
      rw [lexemes, Draft.addLexemes, Draft.addLexemes]
      refine (addLexeme_shows hknown text l).bind fun i => ?_
      refine (addLexemes_shows hknown text ls).bind fun is => ?_
      have htoList : (i.map v.item).toList ++ is.map v.item = (i.toList ++ is).map v.item := by
        cases i <;> rfl
      rw [htoList]
      exact .pure _

end

/-- **What is seen of a draft is the draft of what is seen.** -/
theorem draft_ofLexemes (hknown : known.IsSemantic) (text : String) (ls : List Lexeme) :
    v.draft (Draft.ofLexemes known text ls) =
      Draft.ofLexemes (v.knowledge known) (v.text text) (v.lexemes ls) := by
  have hwork : v.Shows (Option.map v.item)
      (do Draft.compose text (← Draft.addLexemes known text ls))
      (do
        let is ← Draft.addLexemes (v.knowledge known) (v.text text) (v.lexemes ls)
        Draft.compose (v.text text) is) :=
    (addLexemes_shows hknown text ls).bind fun is => compose_shows text is
  have hrun := hwork {}
  have hempty : v.draft {} = {} := by simp [draft, graph, errors]
  rw [hempty] at hrun
  unfold Draft.ofLexemes
  dsimp only
  rw [hrun]
  generalize StateT.run (do Draft.compose text (← Draft.addLexemes known text ls)) {} = built
  obtain ⟨root, d⟩ := built
  cases root with
  | none => rfl
  | some i =>
      simp only [draft, Option.map_some, graph_setRoot, graph_link, label_item]
      rfl

end View

end FilterQuery
