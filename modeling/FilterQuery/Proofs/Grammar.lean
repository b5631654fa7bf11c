import FilterQuery.Lexeme
import FilterQuery.Proofs.Layout

/-!
# The grammar of queries

A query is a disjunction of lexemes:

or  := and (Or and)* and  := unary ([And] unary)* unary := Not* operand

An operand is any lexeme that is no combinator; a group is one if its body is a
disjunction.  The relations below say which lexemes derive which tree.  `and`
and `or` take what is derived so far as their left operand, so that both
associate to the left, and an `and` that is left out makes the same node as one
that is written, at the gap between the lexemes on its two sides.
-/

namespace FilterQuery

open FilterQuery.Graph (Content Saturated)

/-- The tree of a nested query, below its aggregator if it has one. -/
def NestedBlock.tree (block : NestedBlock) (filter : Option String) : Tree Content :=
  let query : Tree Content := .leaf ⟨.nestedQuery { query := block.query, filter }, block.token⟩
  match block.aggregator with
  | none => query
  | some name => .node ⟨.aggregator name, block.token⟩ [query]

namespace Grammar

/-- The gap between lexemes side by side: from behind the last one on the left
to the first one on the right. -/
def gap (text : String) (left right : List Lexeme) : Token :=
  Token.ofRange text ((left.getLast?.map (·.token.stop)).getD 0)
    ((right.head?.map (·.token.position)).getD 0)

mutual

/-- The lexemes are conjunctions with `or` between them. -/
inductive Disjunction (text : String) : List Lexeme → Tree Content → Prop where
  | single {ls : List Lexeme} {t : Tree Content} (h : Conjunction text ls t) :
      Disjunction text ls t
  | or {ls rs : List Lexeme} {t u : Tree Content} (token : Token)
      (left : Disjunction text ls t) (right : Conjunction text rs u) :
      Disjunction text (ls ++ .or token :: rs) (.node ⟨.or, token⟩ [t, u])

/-- The lexemes are operands with their negations, with `and` or nothing between
them. -/
inductive Conjunction (text : String) : List Lexeme → Tree Content → Prop where
  | single {ls : List Lexeme} {t : Tree Content} (h : Negation text ls t) :
      Conjunction text ls t
  | written {ls rs : List Lexeme} {t u : Tree Content} (token : Token)
      (left : Conjunction text ls t) (right : Negation text rs u) :
      Conjunction text (ls ++ .and token :: rs) (.node ⟨.and, token⟩ [t, u])
  | omitted {ls rs : List Lexeme} {t u : Tree Content}
      (left : Conjunction text ls t) (right : Negation text rs u) :
      Conjunction text (ls ++ rs) (.node ⟨.and, gap text ls rs⟩ [t, u])

/-- The lexemes are one operand behind any number of `not`. -/
inductive Negation (text : String) : List Lexeme → Tree Content → Prop where
  | operand {l : Lexeme} {t : Tree Content} (h : Operand text l t) : Negation text [l] t
  | not {ls : List Lexeme} {t : Tree Content} (token : Token) (h : Negation text ls t) :
      Negation text (.not token :: ls) (.node ⟨.not, token⟩ [t])

/-- The lexeme is an operand: a leaf of the query, or a group around a query. -/
inductive Operand (text : String) : Lexeme → Tree Content → Prop where
  | word (s : SearchExpression) (token : Token) :
      Operand text (.word s token) (.leaf ⟨.search s, token⟩)
  | filter (f : FilterExpression) (token : Token) :
      Operand text (.filter f none token) (.leaf ⟨.filter f, token⟩)
  | nestedFilter (f : FilterExpression) (block : NestedBlock) (token : Token) :
      Operand text (.filter f (some block) token)
        (.node ⟨.nestedFilter f, token⟩ [block.tree (some f.name)])
  | nested (block : NestedBlock) : Operand text (.nested block) (block.tree none)
  | toggle (name : String) (token : Token) :
      Operand text (.toggle name token) (.leaf ⟨.toggle name, token⟩)
  | comment (content : String) (token : Token) :
      Operand text (.comment content token) (.leaf ⟨.comment content, token⟩)
  | group {inner : List Lexeme} {t : Tree Content} (token : Token)
      (body : Disjunction text inner t) :
      Operand text (.group inner token) (.node ⟨.group, token⟩ [t])

end

/-- What a lexeme says by itself: an operand its tree, a combinator a node
without operands. -/
inductive Reads (text : String) : Lexeme → Tree Content → Prop where
  | operand {l : Lexeme} {t : Tree Content} (h : Operand text l t) : Reads text l t
  | and (token : Token) : Reads text (.and token) (.leaf ⟨.and, token⟩)
  | or (token : Token) : Reads text (.or token) (.leaf ⟨.or, token⟩)
  | not (token : Token) : Reads text (.not token) (.leaf ⟨.not, token⟩)

mutual

/-- No pair of parentheses in the lexeme is empty. -/
def IsFilled : Lexeme → Prop
  | .group inner _ => inner ≠ [] ∧ AllFilled inner
  | _ => True

/-- No pair of parentheses in the lexemes is empty. -/
def AllFilled : List Lexeme → Prop
  | [] => True
  | l :: ls => IsFilled l ∧ AllFilled ls

end

variable {text : String} {ls : List Lexeme} {l : Lexeme} {t : Tree Content}

mutual

/-- Each lexeme of a derivation says something. -/
theorem Disjunction.reads : ∀ {ls t}, Disjunction text ls t → ∀ l ∈ ls, ∃ u, Reads text l u
  | _, _, .single h => h.reads
  | _, _, .or token left right => by
      intro l hl
      rcases List.mem_append.mp hl with hl | hl
      · exact left.reads l hl
      · rcases List.mem_cons.mp hl with rfl | hl
        · exact ⟨_, .or token⟩
        · exact right.reads l hl

/-- Each lexeme of a conjunction reads as something. -/
theorem Conjunction.reads : ∀ {ls t}, Conjunction text ls t → ∀ l ∈ ls, ∃ u, Reads text l u
  | _, _, .single h => h.reads
  | _, _, .written token left right => by
      intro l hl
      rcases List.mem_append.mp hl with hl | hl
      · exact left.reads l hl
      · rcases List.mem_cons.mp hl with rfl | hl
        · exact ⟨_, .and token⟩
        · exact right.reads l hl
  | _, _, .omitted left right => by
      intro l hl
      rcases List.mem_append.mp hl with hl | hl
      · exact left.reads l hl
      · exact right.reads l hl

/-- Each lexeme of a negation reads as something. -/
theorem Negation.reads : ∀ {ls t}, Negation text ls t → ∀ l ∈ ls, ∃ u, Reads text l u
  | _, _, .operand h => by
      intro l hl
      obtain rfl := List.mem_singleton.mp hl
      exact ⟨_, .operand h⟩
  | _, _, .not token h => by
      intro l hl
      rcases List.mem_cons.mp hl with rfl | hl
      · exact ⟨_, .not token⟩
      · exact h.reads l hl

end

/-- What a lexeme reads as has its token. -/
theorem Reads.token (h : Reads text l t) : t.label.token = l.token := by
  cases h with
  | operand h =>
      cases h with
      | nested block =>
          rw [NestedBlock.tree]
          split <;> rfl
      | _ => rfl
  | _ => rfl

/-- A lexeme other than a group can be read in one way only. -/
theorem Reads.unique {u : Tree Content} (ht : Reads text l t) (hu : Reads text l u)
    (hl : ∀ inner token, l ≠ .group inner token) : t = u := by
  cases ht with
  | operand ht =>
      cases hu with
      | operand hu =>
          cases ht with
          | group token body => exact absurd rfl (hl _ token)
          | _ =>
              cases hu
              rfl
      | _ => cases ht
  | _ =>
      cases hu with
      | operand hu => cases hu
      | _ => rfl

/-- A group reads as a group of what its lexemes are. -/
theorem reads_group {inner : List Lexeme} {token : Token} :
    Reads text (.group inner token) t ↔
      ∃ u, Disjunction text inner u ∧ t = .node ⟨.group, token⟩ [u] := by
  constructor
  · intro h
    cases h with
    | operand h =>
        cases h with
        | group token body => exact ⟨_, body, rfl⟩
  · rintro ⟨u, hu, rfl⟩
    exact .operand (.group token hu)

/-- What a nested query contributes: its aggregator and the query itself. -/
def blockOperands (block : NestedBlock) (filter : Option String) : List Content :=
  (block.aggregator.map fun name => ⟨.aggregator name, block.token⟩).toList ++
    [⟨.nestedQuery { query := block.query, filter }, block.token⟩]

mutual

/-- The operands in a lexeme, in text order: a group has those of its body, a
filter with a nested query itself and the parts of the query. -/
def operands : Lexeme → List Content
  | .group inner _ => operandsOf inner
  | .and _ | .or _ | .not _ => []
  | .nested block => blockOperands block none
  | .filter f none token => [⟨.filter f, token⟩]
  | .filter f (some block) token =>
    ⟨.nestedFilter f, token⟩ :: blockOperands block (some f.name)
  | .toggle name token => [⟨.toggle name, token⟩]
  | .comment content token => [⟨.comment content, token⟩]
  | .word s token => [⟨.search s, token⟩]

/-- The operands in lexemes side by side. -/
def operandsOf : List Lexeme → List Content
  | [] => []
  | l :: ls => operands l ++ operandsOf ls

end

/-- Operands of lexemes one after the other are those of both parts. -/
theorem operandsOf_append (ls rs : List Lexeme) :
    operandsOf (ls ++ rs) = operandsOf ls ++ operandsOf rs := by
  induction ls with
  | nil => rfl
  | cons l ls ih => simp [operandsOf, ih]

/-- The node is neither a combinator nor a pair of parentheses. -/
def isOperandKind (c : Content) : Bool := !c.kind.isCombinator && c.kind ≠ .group

/-- The operands of a tree, each before those below it. -/
def leaves (t : Tree Content) : List Content := t.preorder.filter isOperandKind

/-- An operand is the first leaf of its tree. -/
theorem leaves_of_operand {c : Content} {ts : List (Tree Content)} (h : isOperandKind c) :
    leaves (.node c ts) = c :: ts.flatMap leaves := by
  simp only [leaves, Tree.preorder_node, List.filter_cons_of_pos h, List.filter_flatMap]
  rfl

/-- A combinator has the leaves of its operands. -/
theorem leaves_of_not_operand {c : Content} {ts : List (Tree Content)} (h : ¬ isOperandKind c) :
    leaves (.node c ts) = ts.flatMap leaves := by
  simp only [leaves, Tree.preorder_node, List.filter_cons_of_neg h, List.filter_flatMap]
  rfl

/-- The leaves of a nested query are its aggregator and the query. -/
theorem leaves_tree (block : NestedBlock) (filter : Option String) :
    leaves (block.tree filter) = blockOperands block filter := by
  rw [NestedBlock.tree, blockOperands]
  cases block.aggregator with
  | none => rfl
  | some name => rfl

mutual

/-- **Nothing is lost or moved.**  The operands of the derived tree are those of
the lexemes, each once and in text order. -/
theorem Disjunction.leaves_eq : ∀ {ls t}, Disjunction text ls t → leaves t = operandsOf ls
  | _, _, .single h => h.leaves_eq
  | _, _, .or token left right => by
      rw [leaves_of_not_operand (by simp [isOperandKind, NodeKind.isCombinator]), operandsOf_append]
      simp [operandsOf, operands, left.leaves_eq, right.leaves_eq]

/-- The leaves of a conjunction are its operands in order. -/
theorem Conjunction.leaves_eq : ∀ {ls t}, Conjunction text ls t → leaves t = operandsOf ls
  | _, _, .single h => h.leaves_eq
  | _, _, .written token left right => by
      rw [leaves_of_not_operand (by simp [isOperandKind, NodeKind.isCombinator]), operandsOf_append]
      simp [operandsOf, operands, left.leaves_eq, right.leaves_eq]
  | _, _, .omitted left right => by
      rw [leaves_of_not_operand (by simp [isOperandKind, NodeKind.isCombinator]), operandsOf_append]
      simp [left.leaves_eq, right.leaves_eq]

/-- The leaves of a negation are its operands in order. -/
theorem Negation.leaves_eq : ∀ {ls t}, Negation text ls t → leaves t = operandsOf ls
  | _, _, .operand h => by rw [operandsOf, operandsOf, List.append_nil, h.leaves_eq]
  | _, _, .not token h => by
      rw [leaves_of_not_operand (by simp [isOperandKind, NodeKind.isCombinator])]
      simp [operandsOf, operands, h.leaves_eq]

/-- The leaves of an operand are the operands in it. -/
theorem Operand.leaves_eq : ∀ {l t}, Operand text l t → leaves t = operands l
  | _, _, .word .. | _, _, .filter .. | _, _, .toggle .. | _, _, .comment .. => rfl
  | _, _, .nestedFilter f block token => by
      rw [leaves_of_operand (by simp [isOperandKind, NodeKind.isCombinator])]
      simp [operands, leaves_tree]
  | _, _, .nested block => leaves_tree block none
  | _, _, .group token body => by
      rw [leaves_of_not_operand (by simp [isOperandKind])]
      simp [operands, body.leaves_eq]

end

/-- A nested query, or an aggregator over one. -/
inductive IsBlock : Tree Content → Prop where
  | query (q : NestedExpression) (token : Token) : IsBlock (.leaf ⟨.nestedQuery q, token⟩)
  | aggregator (name : String) (q : NestedExpression) (token token' : Token) :
      IsBlock (.node ⟨.aggregator name, token⟩ [.leaf ⟨.nestedQuery q, token'⟩])

/-- The tree of a query: every combinator and group has its operands, and the
value of a filter is a nested query or nothing. -/
inductive IsQueryTree : Tree Content → Prop where
  | binary {kind : NodeKind} {token : Token} {t u : Tree Content} (h : kind.isBinaryCombinator)
      (left : IsQueryTree t) (right : IsQueryTree u) : IsQueryTree (.node ⟨kind, token⟩ [t, u])
  | not {token : Token} {t : Tree Content} (h : IsQueryTree t) :
      IsQueryTree (.node ⟨.not, token⟩ [t])
  | group {token : Token} {t : Tree Content} (h : IsQueryTree t) :
      IsQueryTree (.node ⟨.group, token⟩ [t])
  | search (s : SearchExpression) (token : Token) : IsQueryTree (.leaf ⟨.search s, token⟩)
  | filter (f : FilterExpression) (token : Token) : IsQueryTree (.leaf ⟨.filter f, token⟩)
  | nestedFilter (f : FilterExpression) (token : Token) {t : Tree Content} (h : IsBlock t) :
      IsQueryTree (.node ⟨.nestedFilter f, token⟩ [t])
  | block {t : Tree Content} (h : IsBlock t) : IsQueryTree t
  | toggle (name : String) (token : Token) : IsQueryTree (.leaf ⟨.toggle name, token⟩)
  | comment (content : String) (token : Token) : IsQueryTree (.leaf ⟨.comment content, token⟩)

/-- The tree of a nested query is a block. -/
theorem isBlock_tree (block : NestedBlock) (filter : Option String) :
    IsBlock (block.tree filter) := by
  rw [NestedBlock.tree]
  split
  · exact .query _ _
  · exact .aggregator _ _ _ _

mutual

/-- What is derived from lexemes is the tree of a query. -/
theorem Disjunction.isQueryTree : ∀ {ls t}, Disjunction text ls t → IsQueryTree t
  | _, _, .single h => h.isQueryTree
  | _, _, .or _ left right => .binary rfl left.isQueryTree right.isQueryTree

/-- A conjunction is a query. -/
theorem Conjunction.isQueryTree : ∀ {ls t}, Conjunction text ls t → IsQueryTree t
  | _, _, .single h => h.isQueryTree
  | _, _, .written _ left right => .binary rfl left.isQueryTree right.isQueryTree
  | _, _, .omitted left right => .binary rfl left.isQueryTree right.isQueryTree

/-- A negation is a query. -/
theorem Negation.isQueryTree : ∀ {ls t}, Negation text ls t → IsQueryTree t
  | _, _, .operand h => h.isQueryTree
  | _, _, .not _ h => .not h.isQueryTree

/-- An operand is a query. -/
theorem Operand.isQueryTree : ∀ {l t}, Operand text l t → IsQueryTree t
  | _, _, .word s token => .search s token
  | _, _, .filter f token => .filter f token
  | _, _, .nestedFilter f block token => .nestedFilter f token (isBlock_tree block _)
  | _, _, .nested block => .block (isBlock_tree block _)
  | _, _, .toggle name token => .toggle name token
  | _, _, .comment content token => .comment content token
  | _, _, .group _ body => .group body.isQueryTree

end

end Grammar

end FilterQuery
