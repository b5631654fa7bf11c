import FilterQuery.Proofs.Combination
import FilterQuery.Proofs.Grammar

/-!
# Sequences of lexemes

Each lexeme of a sequence gives an item, and an `and` is put wherever one is
left out.  The lexemes derive a tree exactly if these items combine, and the
tree is the one that they combine to: the passes follow a derivation from its
operands upwards, and the pieces that the passes cut off make up a derivation.
-/

namespace FilterQuery.Grammar

open FilterQuery.Graph

variable {text : String}

/-- What an item says, without the indices and links of its nodes. -/
abbrev said (item : Item) : Tree Content := item.map Place.content

/-- The item says what the lexeme reads as, and nothing else could be read from
it. -/
structure Faithful (text : String) (l : Lexeme) (item : Item) : Prop where
  reads : Reads text l (said item)
  unique : ∀ t, Reads text l t → said item = t

/-- What an item says has its kind. -/
theorem kind_said (item : Item) : (said item).label.kind = item.kind := by
  rw [Tree.label_map]
  rfl

/-- What an item says has its token. -/
theorem token_said (item : Item) : (said item).label.token = item.token := by
  rw [Tree.label_map]
  rfl

/-- A nested query is no combinator. -/
theorem IsBlock.not_combinator {t : Tree Content} (h : IsBlock t) :
    t.label.kind.isCombinator = false := by
  cases h <;> rfl

/-- An operand is no combinator. -/
theorem Operand.not_combinator {l : Lexeme} {t : Tree Content} (h : Operand text l t) :
    t.label.kind.isCombinator = false := by
  cases h with
  | nested block => exact (isBlock_tree block none).not_combinator
  | _ => rfl

/-- An item that says what an operand does is one. -/
theorem Operand.isOperand {l : Lexeme} {item : Item} (h : Operand text l (said item)) :
    item.isOperand := by
  have hkind := h.not_combinator
  rw [kind_said] at hkind
  simp [Item.isOperand, Item.isWaiting, hkind]

/-- A node without operands that says a combinator waits for them. -/
theorem waits_of_said {item : Item} {kind : NodeKind} {token : Token}
    (h : said item = .leaf ⟨kind, token⟩) (hkind : kind.isCombinator) : item.Waits kind := by
  have hk : item.kind = kind := by
    rw [← kind_said, h]
    rfl
  have hc : item.children.map (Tree.map Place.content) = [] := by
    have hchildren := congrArg Tree.children h
    rwa [Tree.children_map] at hchildren
  exact ⟨hk, by simp [Item.isWaiting, hk, hkind, List.map_eq_nil_iff.mp hc]⟩

namespace Faithful

variable {l : Lexeme} {item : Item} {token : Token}

/-- An item has the token of the lexeme that it comes from. -/
theorem token_eq (h : Faithful text l item) : item.token = l.token := by
  rw [← token_said, h.reads.token]

/-- The item of an operand says what that reads as. -/
theorem operand {t : Tree Content} (h : Faithful text l item) (hop : Operand text l t) :
    item.isOperand ∧ said item = t := by
  have heq := h.unique t (.operand hop)
  exact ⟨Operand.isOperand (heq ▸ hop), heq⟩

/-- The item of an `and` waits for its operands. -/
theorem and (h : Faithful text (.and token) item) :
    item.Waits .and ∧ said item = .leaf ⟨.and, token⟩ :=
  have heq := h.unique _ (.and token)
  ⟨waits_of_said heq rfl, heq⟩

/-- The item of an `or` waits for its operands. -/
theorem or (h : Faithful text (.or token) item) :
    item.Waits .or ∧ said item = .leaf ⟨.or, token⟩ :=
  have heq := h.unique _ (.or token)
  ⟨waits_of_said heq rfl, heq⟩

/-- The item of a `not` waits for its operand. -/
theorem not (h : Faithful text (.not token) item) :
    item.Waits .not ∧ said item = .leaf ⟨.not, token⟩ :=
  have heq := h.unique _ (.not token)
  ⟨waits_of_said heq rfl, heq⟩

/-- The lexeme of an item is an operand, or the combinator that the item waits
as. -/
theorem cases (h : Faithful text l item) :
    (∃ t, Operand text l t ∧ item.isOperand) ∨ (∃ token, l = .and token ∧ item.Waits .and) ∨
      (∃ token, l = .or token ∧ item.Waits .or) ∨ ∃ token, l = .not token ∧ item.Waits .not := by
  have hreads := h.reads
  generalize hsaid : said item = t at hreads
  cases hreads with
  | operand hop => exact .inl ⟨t, hop, Operand.isOperand (hsaid ▸ hop)⟩
  | and token => exact .inr (.inl ⟨token, rfl, h.and.1⟩)
  | or token => exact .inr (.inr (.inl ⟨token, rfl, h.or.1⟩))
  | not token => exact .inr (.inr (.inr ⟨token, rfl, h.not.1⟩))

end Faithful

/-- With operands an item says what they say below it. -/
theorem said_withOperands (item : Item) (operands : List Item) :
    said (item.withOperands operands) = .node item.label.content (operands.map said) := by
  rw [Item.withOperands, said, Tree.map_node]

/-- An item that says a leaf is labelled with it. -/
theorem content_of_said {item : Item} {c : Content} (h : said item = .leaf c) :
    item.label.content = c := by
  have hlabel := congrArg Tree.label h
  rwa [Tree.label_map] at hlabel

/-- The item is an `and` that is left out between two others. -/
def IsGap (text : String) (x y gap : Item) : Prop :=
  said gap = .leaf ⟨.and, Token.ofRange text x.token.stop y.token.position⟩

/-- An `and` is put between all items between which one is left out. -/
inductive Joins (text : String) : List Item → List Item → Prop where
  | nil : Joins text [] []
  | single (x : Item) : Joins text [x] [x]
  | adjacent {x y gap : Item} {xs js : List Item} (h : x.isAdjacent y) (hgap : IsGap text x y gap)
      (rest : Joins text (y :: xs) js) : Joins text (x :: y :: xs) (x :: gap :: js)
  | apart {x y : Item} {xs js : List Item} (h : ¬ x.isAdjacent y)
      (rest : Joins text (y :: xs) js) : Joins text (x :: y :: xs) (x :: js)

/-- Putting in the `and`s that are left out takes nothing away. -/
theorem Joins.subset {items joined : List Item}
    (h : Joins text items joined) : items ⊆ joined := by
  induction h with
  | nil => exact List.Subset.refl _
  | single x => exact List.Subset.refl _
  | adjacent _ _ _ ih =>
      exact List.cons_subset_cons _ (List.Subset.trans ih (List.subset_cons_self _ _))
  | apart _ _ ih => exact List.cons_subset_cons _ ih

/-- Items are joined on both sides of a place, with an `and` between them if one
is left out there. -/
theorem Joins.append_inv {xs ys js : List Item} {a b : Item}
    (h : Joins text (xs ++ a :: b :: ys) js) :
    ∃ js₁ js₂, Joins text (xs ++ [a]) js₁ ∧ Joins text (b :: ys) js₂ ∧
      ((¬ a.isAdjacent b ∧ js = js₁ ++ js₂) ∨
        ∃ gap, a.isAdjacent b ∧ IsGap text a b gap ∧ js = js₁ ++ gap :: js₂) := by
  induction xs generalizing js with
  | nil =>
      rw [List.nil_append] at h
      cases h with
      | @adjacent _ _ gap _ js hadj hgap rest =>
          exact ⟨[a], js, .single a, rest, .inr ⟨gap, hadj, hgap, rfl⟩⟩
      | @apart _ _ _ js hadj rest => exact ⟨[a], js, .single a, rest, .inl ⟨hadj, rfl⟩⟩
  | cons x xs ih =>
      obtain ⟨y, tail, htail, hsplit⟩ : ∃ y tail, xs ++ [a] = y :: tail ∧
          xs ++ a :: b :: ys = y :: (tail ++ b :: ys) := by
        cases xs with
        | nil => exact ⟨a, [], rfl, rfl⟩
        | cons y xs => exact ⟨y, xs ++ [a], rfl, by simp⟩
      rw [List.cons_append, hsplit] at h
      rw [List.cons_append, htail]
      rw [hsplit, htail] at ih
      cases h with
      | @adjacent _ _ gap _ js hadj hgap rest =>
          obtain ⟨js₁, js₂, h₁, h₂, hjs⟩ := ih rest
          refine ⟨x :: gap :: js₁, js₂, .adjacent hadj hgap h₁, h₂, ?_⟩
          rcases hjs with ⟨hab, rfl⟩ | ⟨gap', hab, hgap', rfl⟩
          · exact .inl ⟨hab, rfl⟩
          · exact .inr ⟨gap', hab, hgap', rfl⟩
      | @apart _ _ _ js hadj rest =>
          obtain ⟨js₁, js₂, h₁, h₂, hjs⟩ := ih rest
          refine ⟨x :: js₁, js₂, .apart hadj h₁, h₂, ?_⟩
          rcases hjs with ⟨hab, rfl⟩ | ⟨gap', hab, hgap', rfl⟩
          · exact .inl ⟨hab, rfl⟩
          · exact .inr ⟨gap', hab, hgap', rfl⟩

/-- Behind a combinator no `and` is left out. -/
theorem not_isAdjacent_of_waits_left {x y : Item} {kind : NodeKind} (h : x.Waits kind) :
    ¬ x.isAdjacent y := by
  simp [Item.isAdjacent, Item.isOperand, h.2]

/-- In front of a combinator of two no `and` is left out. -/
theorem not_isAdjacent_of_binary_right {x y : Item} {kind : NodeKind} (h : y.Waits kind)
    (hkind : kind.isBinaryCombinator) : ¬ x.isAdjacent y := by
  simp [Item.isAdjacent, h.2, h.1, hkind]

/-- A relation between lists holds of both parts of the first and two parts of
the second. -/
theorem forall₂_append_left {β γ : Type} {R : β → γ → Prop} {as bs : List β} {xs : List γ}
    (h : List.Forall₂ R (as ++ bs) xs) :
    ∃ ys zs, xs = ys ++ zs ∧ List.Forall₂ R as ys ∧ List.Forall₂ R bs zs := by
  induction as generalizing xs with
  | nil => exact ⟨[], xs, rfl, .nil, h⟩
  | cons a as ih =>
      obtain ⟨x, rest, hx, hrest, rfl⟩ := List.forall₂_cons_left_iff.mp h
      obtain ⟨ys, zs, rfl, hys, hzs⟩ := ih hrest
      exact ⟨x :: ys, zs, rfl, .cons hx hys, hzs⟩

/-- A relation between lists holds of the last members and of those in front. -/
theorem forall₂_concat_left {β γ : Type} {R : β → γ → Prop} {as : List β} {a : β} {xs : List γ}
    (h : List.Forall₂ R (as ++ [a]) xs) :
    ∃ ys x, xs = ys ++ [x] ∧ List.Forall₂ R as ys ∧ R a x := by
  obtain ⟨ys, zs, rfl, hys, hzs⟩ := forall₂_append_left h
  obtain ⟨x, _, hx, hnil, rfl⟩ := List.forall₂_cons_left_iff.mp hzs
  obtain rfl := List.forall₂_nil_left_iff.mp hnil
  exact ⟨ys, x, rfl, hys, hx⟩

mutual

/-- A derivation ends with an operand. -/
theorem Conjunction.ends {ls : List Lexeme} {t : Tree Content} :
    Conjunction text ls t → ∃ init l u, ls = init ++ [l] ∧ Operand text l u
  | .single h => h.ends
  | @Conjunction.written _ ls _ _ _ token left right => by
      obtain ⟨init, l, u, rfl, hop⟩ := right.ends
      exact ⟨ls ++ .and token :: init, l, u, by simp, hop⟩
  | @Conjunction.omitted _ ls _ _ _ left right => by
      obtain ⟨init, l, u, rfl, hop⟩ := right.ends
      exact ⟨ls ++ init, l, u, by simp, hop⟩

/-- A negation ends with an operand. -/
theorem Negation.ends {ls : List Lexeme} {t : Tree Content} :
    Negation text ls t → ∃ init l u, ls = init ++ [l] ∧ Operand text l u
  | .operand h => ⟨[], _, _, rfl, h⟩
  | .not token h => by
      obtain ⟨init, l, u, rfl, hop⟩ := h.ends
      exact ⟨.not token :: init, l, u, rfl, hop⟩

end

/-- A disjunction ends with an operand. -/
theorem Disjunction.ends {ls : List Lexeme} {t : Tree Content} :
    Disjunction text ls t → ∃ init l u, ls = init ++ [l] ∧ Operand text l u
  | .single h => h.ends
  | @Disjunction.or _ ls _ _ _ token left right => by
      obtain ⟨init, l, u, rfl, hop⟩ := right.ends
      exact ⟨ls ++ .or token :: init, l, u, by simp, hop⟩

/-- A negated operand begins with a `not` or the operand. -/
theorem Negation.begins {ls : List Lexeme} {t : Tree Content} :
    Negation text ls t →
      ∃ l tail, ls = l :: tail ∧ ((∃ u, Operand text l u) ∨ ∃ token, l = .not token)
  | .operand h => ⟨_, [], rfl, .inl ⟨_, h⟩⟩
  | .not token _ => ⟨_, _, rfl, .inr ⟨token, rfl⟩⟩

/-- A conjunction begins with an operand or with a `not`. -/
theorem Conjunction.begins {ls : List Lexeme} {t : Tree Content} :
    Conjunction text ls t →
      ∃ l tail, ls = l :: tail ∧ ((∃ u, Operand text l u) ∨ ∃ token, l = .not token)
  | .single h => h.begins
  | .written token left _ => by
      obtain ⟨l, tail, rfl, hl⟩ := left.begins
      exact ⟨l, _, rfl, hl⟩
  | .omitted left _ => by
      obtain ⟨l, tail, rfl, hl⟩ := left.begins
      exact ⟨l, _, rfl, hl⟩

/-- The items on the two sides of a written combinator of two are joined by
themselves. -/
theorem Joins.around_binary {ls rs : List Lexeme} {lc : Lexeme} {kind : NodeKind}
    {xs js : List Item} (hls : ∃ init l u, ls = init ++ [l] ∧ Operand text l u)
    (hrs : ∃ l tail, rs = l :: tail ∧ ((∃ u, Operand text l u) ∨ ∃ token, l = .not token))
    (hkind : kind.isBinaryCombinator) (hlc : ∀ c, Faithful text lc c → c.Waits kind)
    (hxs : List.Forall₂ (Faithful text) (ls ++ lc :: rs) xs) (hjs : Joins text xs js) :
    ∃ xs₁ c xs₂ js₁ js₂, List.Forall₂ (Faithful text) ls xs₁ ∧ Faithful text lc c ∧
      List.Forall₂ (Faithful text) rs xs₂ ∧ Joins text xs₁ js₁ ∧ Joins text xs₂ js₂ ∧
      js = js₁ ++ c :: js₂ := by
  obtain ⟨init, l, u, rfl, -⟩ := hls
  obtain ⟨m, tail, rfl, -⟩ := hrs
  obtain ⟨xs₁, rest, rfl, h₁, hrest⟩ := forall₂_append_left hxs
  obtain ⟨c, xs₂, hc, h₂, rfl⟩ := List.forall₂_cons_left_iff.mp hrest
  obtain ⟨as, a, rfl, has, ha⟩ := forall₂_concat_left h₁
  obtain ⟨b, bs, hb, hbs, rfl⟩ := List.forall₂_cons_left_iff.mp h₂
  have hwaits := hlc c hc
  rw [List.append_assoc, List.singleton_append] at hjs
  obtain ⟨js₁, js₂, hj₁, hj₂, hsplit⟩ := hjs.append_inv
  rcases hsplit with ⟨-, rfl⟩ | ⟨gap, hadj, -, -⟩
  · cases hj₂ with
    | adjacent hadj hgap rest => exact absurd hadj (not_isAdjacent_of_waits_left hwaits)
    | @apart _ _ _ js₂ hadj hrest => exact ⟨_, c, _, js₁, js₂, h₁, hc, h₂, hj₁, hrest, rfl⟩
  · exact absurd hadj (not_isAdjacent_of_binary_right hwaits hkind)

/-- Between the items of operands side by side an `and` is put. -/
theorem Joins.around_gap {ls rs : List Lexeme} {xs js : List Item}
    (hls : ∃ init l u, ls = init ++ [l] ∧ Operand text l u)
    (hrs : ∃ l tail, rs = l :: tail ∧ ((∃ u, Operand text l u) ∨ ∃ token, l = .not token))
    (hxs : List.Forall₂ (Faithful text) (ls ++ rs) xs) (hjs : Joins text xs js) :
    ∃ xs₁ gap xs₂ js₁ js₂, List.Forall₂ (Faithful text) ls xs₁ ∧
      said gap = .leaf ⟨.and, Grammar.gap text ls rs⟩ ∧ List.Forall₂ (Faithful text) rs xs₂ ∧
      Joins text xs₁ js₁ ∧ Joins text xs₂ js₂ ∧ js = js₁ ++ gap :: js₂ := by
  obtain ⟨init, l, u, rfl, hl⟩ := hls
  obtain ⟨m, tail, rfl, hm⟩ := hrs
  obtain ⟨xs₁, xs₂, rfl, h₁, h₂⟩ := forall₂_append_left hxs
  obtain ⟨as, a, rfl, has, ha⟩ := forall₂_concat_left h₁
  obtain ⟨b, bs, hb, hbs, rfl⟩ := List.forall₂_cons_left_iff.mp h₂
  have hadj : a.isAdjacent b := by
    have haop := (ha.operand hl).1
    rcases hm with ⟨v, hv⟩ | ⟨token, rfl⟩
    · have hbop := (hb.operand hv).1
      simp only [Item.isOperand, Bool.not_eq_eq_eq_not, Bool.not_true] at hbop
      simp [Item.isAdjacent, haop, hbop]
    · simp [Item.isAdjacent, haop, hb.not.1.1, NodeKind.isBinaryCombinator]
  rw [List.append_assoc, List.singleton_append] at hjs
  obtain ⟨js₁, js₂, hj₁, hj₂, hsplit⟩ := hjs.append_inv
  rcases hsplit with ⟨hnot, -⟩ | ⟨gap, -, hgap, rfl⟩
  · exact absurd hadj hnot
  · refine ⟨_, gap, _, js₁, js₂, h₁, ?_, h₂, hj₁, hj₂, rfl⟩
    rw [hgap, ha.token_eq, hb.token_eq]
    simp [Grammar.gap]

/-- The items of a negated operand. -/
theorem Negation.negated {ls : List Lexeme} {t : Tree Content} :
    Negation text ls t → ∀ {xs js : List Item}, List.Forall₂ (Faithful text) ls xs →
      Joins text xs js → ∃ y, Negated js y ∧ said y = t
  | .operand h, xs, js, hxs, hjs => by
      obtain ⟨x, rest, hx, hrest, rfl⟩ := List.forall₂_cons_left_iff.mp hxs
      obtain rfl := List.forall₂_nil_left_iff.mp hrest
      obtain ⟨hop, hsaid⟩ := hx.operand h
      cases hjs with
      | single => exact ⟨x, .operand hop, hsaid⟩
  | .not token h, xs, js, hxs, hjs => by
      obtain ⟨x, rest, hx, hrest, rfl⟩ := List.forall₂_cons_left_iff.mp hxs
      obtain ⟨hwaits, hsaid⟩ := hx.not
      obtain ⟨l, tail, rfl, -⟩ := h.begins
      obtain ⟨y, rest, -, -, rfl⟩ := List.forall₂_cons_left_iff.mp hrest
      cases hjs with
      | adjacent hadj hgap rest => exact absurd hadj (not_isAdjacent_of_waits_left hwaits)
      | apart hadj hrestjs =>
          obtain ⟨z, hz, hsaidz⟩ := h.negated hrest hrestjs
          refine ⟨x.withOperands [z], .not hwaits hz, ?_⟩
          rw [said_withOperands, content_of_said hsaid, ← hsaidz]
          rfl

/-- The items of a conjunction, as pieces of the first pass and one chain of the
second. -/
theorem Conjunction.conjoined {ls : List Lexeme} {t : Tree Content} :
    Conjunction text ls t → ∀ {xs js : List Item}, List.Forall₂ (Faithful text) ls xs →
      Joins text xs js →
      ∃ ys z, Segments (Piece Negated .not) js ys ∧ Chained .and ys z ∧ said z = t
  | .single h, xs, js, hxs, hjs => by
      obtain ⟨y, hy, hsaid⟩ := h.negated hxs hjs
      exact ⟨[y], y, .single (.inl hy), .operand hy.isOperand, hsaid⟩
  | .written token left right, xs, js, hxs, hjs => by
      obtain ⟨xs₁, c, xs₂, js₁, js₂, h₁, hc, h₂, hj₁, hj₂, rfl⟩ :=
        Joins.around_binary left.ends right.begins rfl (fun c hc => hc.and.1) hxs hjs
      obtain ⟨hwaits, hsaid⟩ := hc.and
      obtain ⟨ys, z, hys, hz, hsaidz⟩ := left.conjoined h₁ hj₁
      obtain ⟨y, hy, hsaidy⟩ := right.negated h₂ hj₂
      have hpiece : Piece Negated .not [c] c := hwaits.piece (by decide)
      refine ⟨ys ++ [c, y], c.withOperands [z, y], hys.append (.cons hpiece (.single (.inl hy))),
        .more hz hwaits hy.isOperand, ?_⟩
      rw [said_withOperands, content_of_said hsaid, ← hsaidz, ← hsaidy]
      rfl
  | .omitted left right, xs, js, hxs, hjs => by
      obtain ⟨xs₁, c, xs₂, js₁, js₂, h₁, hsaid, h₂, hj₁, hj₂, rfl⟩ :=
        Joins.around_gap left.ends right.begins hxs hjs
      have hwaits : c.Waits .and := waits_of_said hsaid rfl
      obtain ⟨ys, z, hys, hz, hsaidz⟩ := left.conjoined h₁ hj₁
      obtain ⟨y, hy, hsaidy⟩ := right.negated h₂ hj₂
      have hpiece : Piece Negated .not [c] c := hwaits.piece (by decide)
      refine ⟨ys ++ [c, y], c.withOperands [z, y], hys.append (.cons hpiece (.single (.inl hy))),
        .more hz hwaits hy.isOperand, ?_⟩
      rw [said_withOperands, content_of_said hsaid, ← hsaidz, ← hsaidy]
      rfl

/-- The items of a disjunction, as pieces of the first two passes and one chain
of the third. -/
theorem Disjunction.disjoined {ls : List Lexeme} {t : Tree Content} :
    Disjunction text ls t → ∀ {xs js : List Item}, List.Forall₂ (Faithful text) ls xs →
      Joins text xs js →
      ∃ ys zs w, Segments (Piece Negated .not) js ys ∧
        Segments (Piece (Chained .and) .and) ys zs ∧ Chained .or zs w ∧ said w = t
  | .single h, xs, js, hxs, hjs => by
      obtain ⟨ys, z, hys, hz, hsaid⟩ := h.conjoined hxs hjs
      exact ⟨ys, [z], z, hys, .single (.inl hz), .operand hz.isOperand, hsaid⟩
  | .or token left right, xs, js, hxs, hjs => by
      obtain ⟨xs₁, c, xs₂, js₁, js₂, h₁, hc, h₂, hj₁, hj₂, rfl⟩ :=
        Joins.around_binary left.ends right.begins rfl (fun c hc => hc.or.1) hxs hjs
      obtain ⟨hwaits, hsaid⟩ := hc.or
      obtain ⟨ys, zs, w, hys, hzs, hw, hsaidw⟩ := left.disjoined h₁ hj₁
      obtain ⟨ys', z, hys', hz, hsaidz⟩ := right.conjoined h₂ hj₂
      have hnot : Piece Negated .not [c] c := hwaits.piece (by decide)
      have hand : Piece (Chained .and) .and [c] c := hwaits.piece (by decide)
      refine ⟨ys ++ c :: ys', zs ++ [c, z], c.withOperands [w, z], hys.append (.cons hnot hys'),
        hzs.append (.cons hand (.single (.inl hz))), .more hw hwaits hz.isOperand, ?_⟩
      rw [said_withOperands, content_of_said hsaid, ← hsaidw, ← hsaidz]
      rfl

/-- What the lexemes derive is what their items combine to. -/
theorem Disjunction.combines {ls : List Lexeme} {t : Tree Content} (h : Disjunction text ls t)
    {xs js : List Item} (hxs : List.Forall₂ (Faithful text) ls xs) (hjs : Joins text xs js) :
    ∃ w, Combines js w ∧ said w = t := by
  obtain ⟨ys, zs, w, hys, hzs, hw, hsaid⟩ := h.disjoined hxs hjs
  exact ⟨w, ⟨ys, zs, hys, hzs, .inl hw⟩, hsaid⟩

/-- A joined item comes from one lexeme, or from none if it is an `and` that was
left out. -/
def Spells (text : String) (piece : List Lexeme) (item : Item) : Prop :=
  (∃ l, piece = [l] ∧ Faithful text l item) ∨ (piece = [] ∧ item.Waits .and)

/-- Joined items come from the lexemes, each from one or from none. -/
theorem Joins.spells {xs js : List Item} (h : Joins text xs js) {ls : List Lexeme}
    (hxs : List.Forall₂ (Faithful text) ls xs) : Segments (Spells text) ls js := by
  induction h generalizing ls with
  | nil =>
      obtain rfl := List.forall₂_nil_right_iff.mp hxs
      exact .nil
  | single x =>
      obtain ⟨l, _, hl, hnil, rfl⟩ := List.forall₂_cons_right_iff.mp hxs
      obtain rfl := List.forall₂_nil_right_iff.mp hnil
      exact .single (.inl ⟨l, rfl, hl⟩)
  | adjacent hadj hgap rest ih =>
      obtain ⟨l, ls, hl, hls, rfl⟩ := List.forall₂_cons_right_iff.mp hxs
      have hwaits := waits_of_said hgap rfl
      exact .cons_single (.inl ⟨l, rfl, hl⟩) (.cons_empty (.inr ⟨rfl, hwaits⟩) (ih hls))
  | apart hadj rest ih =>
      obtain ⟨l, ls, hl, hls, rfl⟩ := List.forall₂_cons_right_iff.mp hxs
      exact .cons_single (.inl ⟨l, rfl, hl⟩) (ih hls)

/-- A joined operand comes from one lexeme, which is one as well. -/
theorem Spells.operand {ls : List Lexeme} {item : Item} (h : Spells text ls item)
    (hitem : item.isOperand) : ∃ l t, ls = [l] ∧ Operand text l t := by
  rcases h with ⟨l, rfl, hl⟩ | ⟨-, hwaits⟩
  · rcases hl.cases with ⟨t, hop, -⟩ | ⟨_, -, hw⟩ | ⟨_, -, hw⟩ | ⟨_, -, hw⟩
    · exact ⟨l, t, rfl, hop⟩
    all_goals exact absurd hitem hw.not_isOperand
  · exact absurd hitem hwaits.not_isOperand

/-- A joined combinator comes from its lexeme, or is an `and` that was left
out. -/
theorem Spells.waits {ls : List Lexeme} {item : Item} {kind : NodeKind}
    (h : Spells text ls item) (hitem : item.Waits kind) :
    (kind = .and ∧ (ls = [] ∨ ∃ token, ls = [.and token])) ∨
      (kind = .or ∧ ∃ token, ls = [.or token]) ∨ (kind = .not ∧ ∃ token, ls = [.not token]) := by
  rcases h with ⟨l, rfl, hl⟩ | ⟨rfl, hwaits⟩
  · rcases hl.cases with ⟨t, -, hop⟩ | ⟨token, rfl, hw⟩ | ⟨token, rfl, hw⟩ | ⟨token, rfl, hw⟩
    · exact absurd hop hitem.not_isOperand
    · exact .inl ⟨hitem.1.symm.trans hw.1, .inr ⟨token, rfl⟩⟩
    · exact .inr (.inl ⟨hitem.1.symm.trans hw.1, token, rfl⟩)
    · exact .inr (.inr ⟨hitem.1.symm.trans hw.1, token, rfl⟩)
  · exact .inl ⟨hitem.1.symm.trans hwaits.1, .inl rfl⟩

/-- The lexemes of a negated operand are a negation. -/
theorem derives_negation {js : List Item} {y : Item} (h : Negated js y) {ls : List Lexeme}
    (hls : Segments (Spells text) ls js) : ∃ t, Negation text ls t := by
  induction h generalizing ls with
  | operand h =>
      obtain ⟨l, t, rfl, hop⟩ := hls.single_inv.operand h
      exact ⟨t, .operand hop⟩
  | not h below ih =>
      obtain ⟨piece, rest, rfl, hhead, htail⟩ := hls.cons_inv
      obtain ⟨t, ht⟩ := ih htail
      rcases hhead.waits h with ⟨hk, -⟩ | ⟨hk, -⟩ | ⟨-, token, rfl⟩
      · cases hk
      · cases hk
      · exact ⟨_, .not token ht⟩

/-- The lexemes of a chain of negations are a conjunction. -/
theorem derives_conjunction {ys : List Item} {z : Item} (h : Chained .and ys z)
    {js : List Item} (hjs : Segments (Piece Negated .not) js ys) {ls : List Lexeme}
    (hls : Segments (Spells text) ls js) : ∃ t, Conjunction text ls t := by
  induction h generalizing js ls with
  | operand h =>
      obtain ⟨t, ht⟩ := derives_negation (hjs.single_inv.of_isOperand h) hls
      exact ⟨t, .single ht⟩
  | more init h hright ih =>
      obtain ⟨js₁, rest, rfl, hinit, hrest⟩ := hjs.append_inv
      obtain ⟨jc, js₂, rfl, hc, hlast⟩ := hrest.cons_inv
      obtain ⟨rfl, -⟩ := hc.of_waits (fun _ _ h => h.isOperand) h
      obtain ⟨ls₁, rest, rfl, hls₁, hrest⟩ := hls.append_inv
      obtain ⟨lc, ls₂, rfl, hlc, hls₂⟩ := hrest.cons_inv
      obtain ⟨t, ht⟩ := ih hinit hls₁
      obtain ⟨u, hu⟩ := derives_negation (hlast.single_inv.of_isOperand hright) hls₂
      rcases hlc.waits h with ⟨-, rfl | ⟨token, rfl⟩⟩ | ⟨hk, -⟩ | ⟨hk, -⟩
      · exact ⟨_, .omitted ht hu⟩
      · exact ⟨_, .written token ht hu⟩
      · cases hk
      · cases hk

/-- The lexemes of a chain of conjunctions are a disjunction. -/
theorem derives_disjunction {zs : List Item} {w : Item} (h : Chained .or zs w)
    {js ys : List Item} (hjs : Segments (Piece Negated .not) js ys)
    (hys : Segments (Piece (Chained .and) .and) ys zs) {ls : List Lexeme}
    (hls : Segments (Spells text) ls js) : ∃ t, Disjunction text ls t := by
  induction h generalizing js ys ls with
  | operand h =>
      obtain ⟨t, ht⟩ := derives_conjunction (hys.single_inv.of_isOperand h) hjs hls
      exact ⟨t, .single ht⟩
  | more init h hright ih =>
      obtain ⟨ys₁, rest, rfl, hinit, hrest⟩ := hys.append_inv
      obtain ⟨yc, ys₂, rfl, hyc, hlast⟩ := hrest.cons_inv
      obtain ⟨rfl, -⟩ := hyc.of_waits (fun _ _ h => h.isOperand) h
      obtain ⟨js₁, rest, rfl, hjs₁, hrest⟩ := hjs.append_inv
      obtain ⟨jc, js₂, rfl, hjc, hjs₂⟩ := hrest.cons_inv
      obtain ⟨rfl, -⟩ := hjc.of_waits (fun _ _ h => h.isOperand) h
      obtain ⟨ls₁, rest, rfl, hls₁, hrest⟩ := hls.append_inv
      obtain ⟨lc, ls₂, rfl, hlc, hls₂⟩ := hrest.cons_inv
      obtain ⟨t, ht⟩ := ih hjs₁ hinit hls₁
      obtain ⟨u, hu⟩ := derives_conjunction (hlast.single_inv.of_isOperand hright) hjs₂ hls₂
      rcases hlc.waits h with ⟨hk, -⟩ | ⟨-, token, rfl⟩ | ⟨hk, -⟩
      · cases hk
      · exact ⟨_, .or token ht hu⟩
      · cases hk

/-- Lexemes whose items combine derive a tree. -/
theorem derives_of_combines {js : List Item} {w : Item} (h : Combines js w) {ls : List Lexeme}
    (hls : Segments (Spells text) ls js) : ∃ t, Disjunction text ls t := by
  obtain ⟨ys, zs, hys, hzs, hw⟩ := h.exists_pieces
  rcases hw with hw | ⟨rfl, hwaits, hor⟩
  · exact derives_disjunction hw hys hzs hls
  · -- A combinator that still waits would have to be neither `not` nor `and` nor `or`.
    have hself : w.Waits w.kind := ⟨rfl, hwaits⟩
    obtain ⟨rfl, hand⟩ := hzs.single_inv.of_waits (fun _ _ h => h.isOperand) hself
    obtain ⟨-, hnot⟩ := hys.single_inv.of_waits (fun _ _ h => h.isOperand) hself
    have hcombinator : w.kind.isCombinator := by
      simp only [Item.isWaiting, Bool.and_eq_true] at hwaits
      exact hwaits.1
    cases hk : w.kind <;> simp_all [NodeKind.isCombinator]

end FilterQuery.Grammar
