import FilterQuery.Proofs.DraftedTokens
import FilterQuery.Proofs.ReachableQueries

/-!
# Where errors point

Whatever is reported about a query is about a piece of its text.  Drafting keeps
this of the tokens of its nodes and of its errors, one step at a time; the graph
to evaluate has no other tokens, and compiling it reports errors at the tokens
of its nodes.
-/

namespace FilterQuery

open FilterQuery.Graph (Place Content)

variable {source : String}

/-- All of the errors are about pieces of the text. -/
def AllWithin (source : String) (es : List QueryError) : Prop := ∀ e ∈ es, e.IsWithin source

namespace AllWithin

variable {es fs : List QueryError}

theorem nil : AllWithin source [] := fun _ he => absurd he List.not_mem_nil

/-- Errors about pieces of the text may follow each other. -/
theorem append (h : AllWithin source es) (h' : AllWithin source fs) :
    AllWithin source (es ++ fs) := by
  intro e he
  rcases List.mem_append.mp he with he | he
  · exact h e he
  · exact h' e he

/-- One error about a piece of the text is a list of them. -/
theorem about {token : Token} (h : token.IsWithin source) (cause : Cause) :
    AllWithin source [QueryError.about cause token] := by
  intro e he
  rw [List.mem_singleton.mp he]
  exact h.about cause

end AllWithin

/-- The nodes of the graph stand at pieces of the text. -/
abbrev Graph.IsWithin (source : String) (g : Graph) : Prop := g.TokensAll (·.IsWithin source)

/-- An empty graph stands at no place. -/
theorem Graph.isWithin_empty : ({} : Graph).IsWithin source :=
  tokensAll_empty Token.isWithin_default

/-- What lies between two pieces of the text is one. -/
theorem handsOn_isWithin (source : String) :
    HandsOn source (·.IsWithin source) (·.IsWithin source) where
  nowhere := Token.isWithin_default
  gap _ _ ht hu := ht.gap hu
  about cause _ ht _ := ht.about cause

namespace Graph

/-- The tokens at the places of a tree are pieces of the text. -/
def PlacesWithin (source : String) (t : Tree Place) : Prop :=
  ∀ p ∈ t.preorder, p.token.IsWithin source

/-- The tokens in a tree are pieces of the text. -/
def TreeWithin (source : String) (t : Tree Content) : Prop :=
  ∀ c ∈ t.preorder, c.token.IsWithin source

variable {g : Graph}

/-- A tree is within the text if its root and the trees below are. -/
theorem TreeWithin.node {c : Content} {ts : List (Tree Content)} (h : c.token.IsWithin source)
    (hbelow : ∀ t ∈ ts, TreeWithin source t) : TreeWithin source (.node c ts) := by
  intro d hd
  rw [Tree.preorder_node] at hd
  rcases List.mem_cons.mp hd with rfl | hd
  · exact h
  · obtain ⟨t, ht, hd⟩ := List.mem_flatMap.mp hd
    exact hbelow t ht d hd

/-- If a tree is within the text, so are its root and the trees below. -/
theorem TreeWithin.of_node {c : Content} {ts : List (Tree Content)}
    (h : TreeWithin source (.node c ts)) :
    c.token.IsWithin source ∧ ∀ t ∈ ts, TreeWithin source t :=
  ⟨h c (by simp), fun _ ht d hd => h d (Tree.mem_preorder_of_child ht hd)⟩

/-- If the places of a tree are, so are its root and the trees below. -/
theorem PlacesWithin.of_node {p : Place} {ts : List (Tree Place)}
    (h : PlacesWithin source (.node p ts)) :
    p.token.IsWithin source ∧ ∀ t ∈ ts, PlacesWithin source t :=
  ⟨h p (by simp), fun _ ht q hq => h q (Tree.mem_preorder_of_child ht hq)⟩

/-- What a graph within the text unfolds to is within it. -/
theorem IsWithin.unfoldFrom (h : g.IsWithin source) (fuel : Nat) (id : NodeId) :
    PlacesWithin source (g.unfoldFrom fuel id) := by
  induction fuel generalizing id with
  | zero =>
      intro p hp
      rw [Graph.unfoldFrom, Tree.leaf, Tree.preorder_node] at hp
      obtain rfl : p = ⟨id, g.node id⟩ := by simpa using hp
      exact h id
  | succ fuel ih =>
      intro p hp
      rw [Graph.unfoldFrom, Tree.preorder_node] at hp
      rcases List.mem_cons.mp hp with rfl | hp
      · exact h id
      · obtain ⟨t, ht, hp⟩ := List.mem_flatMap.mp hp
        obtain ⟨child, -, rfl⟩ := List.mem_map.mp ht
        exact ih child p hp

/-- The tree of a graph within the text is within it. -/
theorem IsWithin.tree (h : g.IsWithin source) {t : Tree Place} (ht : g.tree? = some t) :
    PlacesWithin source t := by
  obtain ⟨root, -, rfl⟩ := Option.map_eq_some_iff.mp ht
  exact h.unfoldFrom _ root

/-- Defects of a graph within the text are about pieces of it. -/
theorem validate_within (h : g.IsWithin source) : AllWithin source g.validate := by
  intro e he
  obtain ⟨p, hp, he⟩ := List.mem_flatMap.mp he
  have hplace : p.token.IsWithin source := by
    unfold places at hp
    split at hp
    · cases hp
    · next t ht => exact h.tree ht p hp
  unfold defects at he
  rcases List.mem_append.mp he with he | he
  · split at he
    · cases he
    · exact AllWithin.about hplace _ e he
  · obtain ⟨child, -, rfl⟩ := List.mem_map.mp he
    exact hplace.about _

/-- Pruning leaves tokens of the tree. -/
theorem prune_within {u : Tree Place} (h : PlacesWithin source u) :
    ∀ v ∈ prune u, TreeWithin source v := by
  induction u with
  | node p ts ih =>
      obtain ⟨hp, hbelow⟩ := h.of_node
      have hkept : ∀ v ∈ ts.filterMap prune, TreeWithin source v := by
        intro v hv
        obtain ⟨t, ht, hprune⟩ := List.mem_filterMap.mp hv
        exact ih t ht (hbelow t ht) v hprune
      intro v hv
      rw [prune, pruneAll_eq_filterMap] at hv
      split at hv
      · cases hv
      · split at hv
        · cases ts with
          | nil => cases hv
          | cons t ts => exact ih t List.mem_cons_self (hbelow t List.mem_cons_self) v hv
        · cases hv
        · cases hv
        · split at hv
          · split at hv
            · cases hv
            · obtain rfl := Option.some.inj hv
              exact .node hp fun t ht => absurd ht List.not_mem_nil
          · next only heq =>
              split at hv
              · obtain rfl := Option.some.inj hv
                exact hkept _ (by rw [heq]; simp)
              · obtain rfl := Option.some.inj hv
                rw [← heq]
                exact .node hp hkept
          · obtain rfl := Option.some.inj hv
            exact .node hp hkept

/-- Promoting a node keeps the tokens, and notes an error at one of them. -/
theorem promoteNode_within {c : Content} {ts : List (Tree Content)} (h : c.token.IsWithin source)
    (hbelow : ∀ t ∈ ts, TreeWithin source t) :
    TreeWithin source (promoteNode c ts).value ∧ AllWithin source (promoteNode c ts).notes := by
  unfold promoteNode
  split
  · exact ⟨.node h hbelow, .nil⟩
  · split
    · exact ⟨.node h hbelow, .nil⟩
    · split
      · exact ⟨.node h hbelow, .about h _⟩
      · exact ⟨.node h hbelow, .nil⟩

/-- Promoting a tree keeps the tokens, and notes errors at them. -/
theorem promote_within {t : Tree Content} (h : TreeWithin source t) :
    TreeWithin source (promote t).value ∧ AllWithin source (promote t).notes := by
  induction t with
  | node c ts ih =>
      obtain ⟨hc, hbelow⟩ := h.of_node
      obtain ⟨hvalue, hnotes⟩ := promote_node c ts
      have hpromoted : ∀ u ∈ ts.map fun t => (promote t).value, TreeWithin source u := by
        intro u hu
        obtain ⟨t, ht, rfl⟩ := List.mem_map.mp hu
        exact (ih t ht (hbelow t ht)).1
      obtain ⟨hnode, hnoted⟩ := promoteNode_within hc hpromoted
      rw [hvalue, hnotes]
      refine ⟨hnode, AllWithin.append (fun e he => ?_) hnoted⟩
      obtain ⟨t, ht, he⟩ := List.mem_flatMap.mp he
      exact (ih t ht (hbelow t ht)).2 e he

/-- Making a tree enumerable keeps the tokens. -/
theorem enumerated_within {t : Tree Content} (h : TreeWithin source t) :
    TreeWithin source (enumerated t) := by
  have hroot : t.label.token.IsWithin source := by
    obtain ⟨c, ts⟩ := t
    exact h.of_node.1
  unfold enumerated
  split
  · exact h
  · refine .node hroot fun u hu => ?_
    rwa [List.mem_singleton.mp hu]

/-- New links keep the tokens. -/
theorem addChildren_within (h : g.IsWithin source) (parent : NodeId) (ids : List NodeId) :
    (ids.foldl (·.addChild parent ·) g).IsWithin source := by
  induction ids generalizing g with
  | nil => exact h
  | cons id ids ih => exact ih (h.addChild parent id)

mutual

/-- Adding a tree within the text keeps the graph within it. -/
theorem addTree_within {g : Graph} (h : g.IsWithin source) :
    ∀ t : Tree Content, TreeWithin source t → (g.addTree t).1.IsWithin source
  | .node c ts, ht => by
      obtain ⟨hc, hbelow⟩ := ht.of_node
      rw [addTree]
      exact addChildren_within ((addTrees_within h ts hbelow).add c.kind hc) _ _

/-- Adding trees within the text keeps the graph within it. -/
theorem addTrees_within {g : Graph} (h : g.IsWithin source) :
    ∀ ts : List (Tree Content), (∀ t ∈ ts, TreeWithin source t) →
      (g.addTrees ts).1.IsWithin source
  | [], _ => h
  | t :: ts, hts => by
      rw [addTrees]
      exact addTrees_within (addTree_within h t (hts t List.mem_cons_self)) ts
        fun u hu => hts u (List.mem_cons_of_mem t hu)

end

/-- The graph of a tree within the text is within it. -/
theorem ofTree_within {t : Tree Content} (h : TreeWithin source t) :
    (ofTree t).IsWithin source := (addTree_within isWithin_empty t h).setRoot _

/-- The evaluation graph of a graph within the text is within it, and so are its
errors. -/
theorem evaluation_within (h : g.IsWithin source) :
    g.evaluation.value.IsWithin source ∧ AllWithin source g.evaluation.notes := by
  unfold evaluation
  split
  · exact ⟨isWithin_empty, .nil⟩
  · next t ht =>
      obtain ⟨u, hu, hprune⟩ := Option.bind_eq_some_iff.mp ht
      obtain ⟨hvalue, hnotes⟩ := promote_within (prune_within (h.tree hu) t hprune)
      have hgraph := ofTree_within (enumerated_within hvalue)
      exact ⟨hgraph, hnotes.append (validate_within hgraph)⟩

end Graph

namespace Engine

variable {α β γ : Type} {engine : Engine α}

/-- What is noted is about pieces of the text. -/
abbrev NotesWithin (source : String) (x : Compiled β) : Prop := NotesAll (·.IsWithin source) x

/-- **Compiling a tree notes errors at its tokens**, as a condition and as a
plan. -/
theorem tree_within {t : Tree Content} (h : Graph.TreeWithin source t) :
    NotesWithin source (engine.conditionOf t) ∧ NotesWithin source (engine.planOf t) := by
  have herror : ∀ {token : Token}, token.IsWithin source → ∀ cause : Cause,
      cause.IsOfLeaf → (QueryError.about cause token).IsWithin source :=
    fun htoken cause _ => htoken.about cause
  have hkeeps : KeepsCompiling (·.IsWithin source) engine engine
      fun _ x _ => NotesWithin source x :=
    { one := fun g _ _ h => h.bind fun _ => .pure _
      pair := fun g _ _ _ _ h h' => h.bind fun _ => h'.bind fun _ => .pure _
      failing := fun cause stub _ htoken => .failing (htoken.about cause) stub
      filter := fun f _ htoken => compileFilter_notes (herror htoken) f
      nestedFilter := fun f _ _ _ htoken h => compileNestedFilter_notes (herror htoken) f h
      search := fun word _ htoken => compileSearch_notes (herror htoken) word
      nestedQuery := fun q _ htoken => compileNested_notes (herror htoken) q
      aggregators := rfl }
  exact hkeeps.contents t h

/-- **Compiling a graph within the text notes errors within it.** -/
theorem compile_within {g : Graph} (h : g.IsWithin source) :
    AllWithin source (engine.compile g).notes := by
  unfold compile
  split
  · exact .nil
  · next t ht =>
      have hcontents : Graph.TreeWithin source (t.map Place.content) := by
        intro c hc
        rw [Tree.preorder_map] at hc
        obtain ⟨p, hp, rfl⟩ := List.mem_map.mp hc
        exact h.tree ht p hp
      have hplan : AllWithin source (engine.compilePlan t).notes := by
        rw [(compile_eq t).2]
        exact (tree_within hcontents).2
      exact hplan.append .nil

end Engine

namespace Query

open Lexeme (scan)
open Text (byteLength)

variable {α : Type} {engine : Engine α}

/-- Compiling a query keeps its errors within the text. -/
theorem compile_within {q : Query α} (hgraph : q.graph.IsWithin source)
    (herrors : AllWithin source q.errors) : AllWithin source q.compile.errors := by
  unfold compile
  split
  · exact Engine.compile_within hgraph
  · exact herrors

/-- What an engine reports about a text is about pieces of it. -/
theorem parse_within (engine : Engine α) (text : String) (mode : Mode) :
    AllWithin text (engine.parse text mode).errors := by
  unfold Engine.parse
  split
  · next e hscan =>
      intro e' he'
      rw [List.mem_singleton.mp he']
      exact (Lexeme.scan_failsAtDelimiter hscan).isSpan
  · next ls hscan =>
      have hdraft : (Draft.ofLexemes engine.knowledge text ls).IsOf (·.IsWithin text)
          (·.IsWithin text) :=
        Draft.ofLexemes_tokens (handsOn_isWithin text) engine.knowledge_isSemantic
          (Lexeme.everyToken_isWithin hscan)
      have hevaluation : (Draft.ofLexemes engine.knowledge text ls).evaluation.value.IsWithin text ∧
          AllWithin text (Draft.ofLexemes engine.knowledge text ls).evaluation.notes := by
        unfold Draft.evaluation
        split
        · exact ⟨Graph.isWithin_empty, .nil⟩
        · exact Graph.evaluation_within hdraft.graph
      exact compile_within hevaluation.1 (AllWithin.append hdraft.errors hevaluation.2)

/-- Compiling keeps the text of a query. -/
theorem compile_text (q : Query α) : q.compile.text = q.text := by
  unfold compile
  split
  · rfl
  · rfl

/-- A query keeps the text that it was made from. -/
theorem parse_text (engine : Engine α) (text : String) (mode : Mode) :
    (engine.parse text mode).text = text := by
  unfold Engine.parse
  split
  · rfl
  · exact compile_text _

/-- An optimized query has the text and the errors that it had. -/
theorem optimize_frame {q : Query α} (h : q.IsCompiled) (options : OptimizationOptions) :
    (q.optimize options).text = q.text ∧ (q.optimize options).errors = q.errors := by
  cases hvalid : q.isValid with
  | false =>
      rw [optimize_of_not_isValid hvalid]
      exact ⟨rfl, rfl⟩
  | true =>
      -- Which elements are equal plays no part in this.
      let _ : BEq α := ⟨fun _ _ => true⟩
      obtain ⟨g, s, plan, plan', -, -, -, -, -, hoptimized⟩ := optimize_of_isValid h hvalid options
      have hempty : q.errors = [] := by
        rw [isValid, Bool.and_eq_true, List.isEmpty_iff] at hvalid
        exact hvalid.1
      rw [hoptimized, hempty]
      exact ⟨rfl, rfl⟩

/-- **A query has the errors that were met when it was made**, whatever has been
done with it. -/
theorem Reachable.errors_eq {q : Query α} (h : Reachable engine q) :
    ∃ mode, q.errors = (engine.parse q.text mode).errors := by
  induction h with
  | parsed text mode => exact ⟨mode, by rw [parse_text]⟩
  | @optimized q h options ih =>
      obtain ⟨mode, herrors⟩ := ih
      obtain ⟨htext, hsame⟩ := optimize_frame h.isSound.compiled options
      exact ⟨mode, by rw [htext, hsame, herrors]⟩
  | returning _ returnsPayload ih => exact ih

/-- **Every error points into the text.**  Each error of a query that a program
can have is about whole characters of the text.  If the text has no lexemes
there is one error: a lexical one, about a brace that closes nothing, or one of
syntax, about the text from another delimiter on.  So a text without
parentheses, braces and quotes always has lexemes. -/
theorem errors_point_into_the_text {q : Query α} (h : Reachable engine q) :
    (∀ e ∈ q.errors, e.IsWithin q.text ∧ e.index + e.length ≤ byteLength q.text.toList) ∧
      (∀ e, scan engine.alphabet q.text = .error e →
        q.errors = [e] ∧ e.IsAtDelimiter 0 q.text.toList) ∧
      ((∀ c ∈ q.text.toList, c ∉ ['(', ')', '\x7b', '\x7d', '"']) →
        ∃ ls, scan engine.alphabet q.text = .ok ls) := by
  obtain ⟨mode, herrors⟩ := h.errors_eq
  refine ⟨fun e he => ?_, fun e hscan => ?_, Lexeme.exists_scan engine.alphabet⟩
  · rw [herrors] at he
    have hwithin := parse_within engine q.text mode e he
    exact ⟨hwithin, hwithin.stop_le⟩
  · have hparse : (engine.parse q.text mode).errors = [e] := by
      rw [Engine.parse, hscan]
    exact ⟨herrors.trans hparse, Lexeme.scan_failsAtDelimiter hscan⟩

/-- The one error of `é (a "b` is about the text from its quote on. -/
theorem errors_of_an_open_quote :
    let q := ({} : Engine Nat).parse "é (a \"b"
    q.errors = [⟨.unterminatedPhrase, 6, 2⟩] ∧ ∀ e ∈ q.errors, e.IsWithin "é (a \"b" := by
  intro q
  have hq : Reachable ({} : Engine Nat) q := .parsed _ _
  have htext : q.text = "é (a \"b" := parse_text _ _ _
  obtain ⟨hwithin, hscan, -⟩ := errors_point_into_the_text hq
  rw [htext] at hwithin hscan
  exact ⟨(hscan ⟨.unterminatedPhrase, 6, 2⟩ rfl).1, fun e he => (hwithin e he).1⟩

end Query

end FilterQuery
