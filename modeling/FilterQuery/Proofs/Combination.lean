import FilterQuery.Graph.Combination
import FilterQuery.Proofs.Trees

/-!
# What combining does

Each pass over the items of a sequence cuts them into pieces and makes one item
of each.  The first pass makes one of a run of negations and the operand behind
it; each of the other two makes one of operands with its combinator between
them, and all passes leave the other combinators alone.  A pass notes nothing
exactly if the items can be cut up so, and then its result is determined by the
pieces.
-/

namespace FilterQuery.Graph

section Segments

variable {β γ : Type} {R : List β → γ → Prop}

/-- A list is cut into pieces, and each piece stands for one member of another
list. -/
inductive Segments (R : List β → γ → Prop) : List β → List γ → Prop where
  | nil : Segments R [] []
  | cons {piece rest : List β} {y : γ} {ys : List γ} (head : R piece y)
      (tail : Segments R rest ys) : Segments R (piece ++ rest) (y :: ys)

namespace Segments

theorem single {piece : List β} {y : γ} (h : R piece y) : Segments R piece [y] := by
  simpa using cons h nil

/-- An element that is a piece by itself may be put in front. -/
theorem cons_single {x : β} {rest : List β} {y : γ} {ys : List γ} (head : R [x] y)
    (tail : Segments R rest ys) : Segments R (x :: rest) (y :: ys) :=
  cons head tail

/-- A member that no element stands for may be put in front. -/
theorem cons_empty {rest : List β} {y : γ} {ys : List γ} (head : R [] y)
    (tail : Segments R rest ys) : Segments R rest (y :: ys) :=
  cons head tail

/-- Segmentations are joined end to end. -/
theorem append {xs₁ xs₂ : List β} {ys₁ ys₂ : List γ} (h₁ : Segments R xs₁ ys₁)
    (h₂ : Segments R xs₂ ys₂) : Segments R (xs₁ ++ xs₂) (ys₁ ++ ys₂) := by
  induction h₁ with
  | nil => exact h₂
  | cons head tail ih =>
      rw [List.append_assoc, List.cons_append]
      exact cons head ih

/-- The first member stands for a piece at the front, and the rest for what
follows. -/
theorem cons_inv {xs : List β} {y : γ} {ys : List γ} (h : Segments R xs (y :: ys)) :
    ∃ piece rest, xs = piece ++ rest ∧ R piece y ∧ Segments R rest ys := by
  cases h with
  | cons head tail => exact ⟨_, _, rfl, head, tail⟩

/-- A list can be cut where the members that it stands for are. -/
theorem append_inv {xs : List β} {ys₁ ys₂ : List γ} (h : Segments R xs (ys₁ ++ ys₂)) :
    ∃ xs₁ xs₂, xs = xs₁ ++ xs₂ ∧ Segments R xs₁ ys₁ ∧ Segments R xs₂ ys₂ := by
  induction ys₁ generalizing xs with
  | nil => exact ⟨[], xs, rfl, nil, h⟩
  | cons y ys₁ ih =>
      obtain ⟨piece, rest, rfl, head, tail⟩ := h.cons_inv
      obtain ⟨xs₁, xs₂, rfl, h₁, h₂⟩ := ih tail
      exact ⟨piece ++ xs₁, xs₂, (List.append_assoc ..).symm, cons head h₁, h₂⟩

/-- Where there is one member, the whole list is its piece. -/
theorem single_inv {xs : List β} {y : γ} (h : Segments R xs [y]) : R xs y := by
  obtain ⟨piece, rest, rfl, head, tail⟩ := h.cons_inv
  cases tail with
  | nil => simpa using head

end Segments

end Segments

namespace Item

/-- The item is a combinator of this kind without operands. -/
def Waits (kind : NodeKind) (item : Item) : Prop := item.kind = kind ∧ item.isWaiting

/-- What still waits for operands is none itself. -/
theorem Waits.not_isOperand {kind : NodeKind} {item : Item} (h : item.Waits kind) :
    ¬ item.isOperand := by
  simp [isOperand, h.2]

/-- What waits has nothing below it yet. -/
theorem Waits.eq_leaf {kind : NodeKind} {item : Item} (h : item.Waits kind) :
    item = .leaf item.label := by
  obtain ⟨p, items⟩ := item
  have hempty := h.2
  simp only [isWaiting, Tree.children_node, Bool.and_eq_true, List.isEmpty_iff] at hempty
  rw [hempty.2]
  rfl

theorem isOperand_or_isWaiting (item : Item) : item.isOperand ∨ item.isWaiting := by
  cases h : item.isWaiting <;> simp [isOperand, h]

/-- A combinator with operands is an operand. -/
theorem isOperand_withOperands (item : Item) (operand : Item) (operands : List Item) :
    (item.withOperands (operand :: operands)).isOperand := by
  simp [isOperand, isWaiting, withOperands]

/-- Taking operands keeps all that is in them. -/
theorem Waits.preorder_withOperands {kind : NodeKind} {item : Item} (h : item.Waits kind)
    (operands : List Item) :
    (item.withOperands operands).preorder = item.preorder ++ operands.flatMap Tree.preorder := by
  rw [h.eq_leaf]
  simp [withOperands, Tree.leaf]

end Item

/-- What a pass makes of a piece of items: either one of the items that it is
about, or a combinator of another kind stands alone. -/
def Piece (R : List Item → Item → Prop) (kind : NodeKind) (piece : List Item) (item : Item) :
    Prop :=
  R piece item ∨ (piece = [item] ∧ item.isWaiting ∧ item.kind ≠ kind)

/-- A piece that gives an operand is one the rule itself takes. -/
theorem Piece.of_isOperand {R : List Item → Item → Prop} {kind : NodeKind} {piece : List Item}
    {item : Item} (h : Piece R kind piece item) (hitem : item.isOperand) : R piece item := by
  rcases h with h | ⟨_, hwaits, _⟩
  · exact h
  · simp [Item.isOperand, hwaits] at hitem

/-- What waits for another pass is left as it is. -/
theorem Item.Waits.piece {R : List Item → Item → Prop} {kind kind' : NodeKind} {item : Item}
    (h : item.Waits kind) (hne : kind ≠ kind') : Piece R kind' [item] item :=
  .inr ⟨rfl, h.2, h.1 ▸ hne⟩

/-- A waiting item comes from itself alone, in a pass that is not its own. -/
theorem Piece.of_waits {R : List Item → Item → Prop} {kind kind' : NodeKind} {piece : List Item}
    {item : Item} (hR : ∀ piece item, R piece item → item.isOperand)
    (h : Piece R kind piece item) (hitem : item.Waits kind') : piece = [item] ∧ kind' ≠ kind := by
  rcases h with h | ⟨rfl, _, hne⟩
  · exact absurd (hR _ _ h) hitem.not_isOperand
  · exact ⟨rfl, hitem.1 ▸ hne⟩

/-- The item is an operand under the negations in front of it. -/
inductive Negated : List Item → Item → Prop where
  | operand {item : Item} (h : item.isOperand) : Negated [item] item
  | not {item operand : Item} {piece : List Item} (h : item.Waits .not)
      (below : Negated piece operand) : Negated (item :: piece) (item.withOperands [operand])

/-- A run of negations with an operand is an operand. -/
theorem Negated.isOperand {piece : List Item} {item : Item} (h : Negated piece item) :
    item.isOperand := by
  cases h with
  | operand h => exact h
  | not h below => exact Item.isOperand_withOperands ..

/-- Negating loses nothing of the piece and adds nothing to it. -/
theorem Negated.preorder {piece : List Item} {item : Item} (h : Negated piece item) :
    item.preorder.Perm (piece.flatMap Tree.preorder) := by
  induction h with
  | operand h => simp
  | not h below ih =>
      rw [h.preorder_withOperands]
      simpa using ih.append_left _

/-- A negation takes the operand that the pass has left behind it. -/
theorem combineNot_cons_of_waits {item operand : Item} {rest more : List Item}
    (h : item.Waits .not) (hrest : combineNot rest = ⟨operand :: more, []⟩)
    (hoperand : operand.isOperand) :
    combineNot (item :: rest) = ⟨item.withOperands [operand] :: more, []⟩ := by
  simp only [combineNot, hrest, bind]
  simp [h.1, h.2, hoperand, pure]

/-- The pass leaves what is no waiting negation as it is. -/
theorem combineNot_cons_of_not_waits {item : Item} {rest : List Item} (h : ¬ item.Waits .not) :
    combineNot (item :: rest) = ⟨item :: (combineNot rest).value, (combineNot rest).notes⟩ := by
  have hcond : ¬ (item.kind = .not ∧ item.isWaiting) := h
  simp only [combineNot, bind]
  simp [hcond, pure]

/-- The pass makes of a negated piece the one item that it stands for. -/
theorem Negated.combineNot {piece rest ys : List Item} {item : Item} (h : Negated piece item)
    (hrest : combineNot rest = ⟨ys, []⟩) : combineNot (piece ++ rest) = ⟨item :: ys, []⟩ := by
  induction h with
  | operand h =>
      rw [List.singleton_append, combineNot_cons_of_not_waits (fun hw => hw.not_isOperand h), hrest]
  | not h below ih =>
      rw [List.cons_append]
      exact combineNot_cons_of_waits h ih below.isOperand

/-- Items that fall into negated operands and other combinators are combined
without a note. -/
theorem combineNot_of_segments {xs ys : List Item} (h : Segments (Piece Negated .not) xs ys) :
    combineNot xs = ⟨ys, []⟩ := by
  induction h with
  | nil => rfl
  | @cons piece rest item ys head tail ih =>
      rcases head with head | ⟨rfl, hwaits, hne⟩
      · exact head.combineNot ih
      · rw [List.singleton_append, combineNot_cons_of_not_waits (fun hw => hne hw.1), ih]

/-- If nothing is noted, then the items fall into negated operands and other
combinators. -/
theorem segments_of_combineNot {xs : List Item} (h : (combineNot xs).notes = []) :
    Segments (Piece Negated .not) xs (combineNot xs).value := by
  induction xs with
  | nil => exact .nil
  | cons item rest ih =>
      by_cases hwaits : item.Waits .not
      · simp only [combineNot, Noted.notes_bind, List.append_eq_nil_iff] at h
        have hrest := ih h.1
        cases hvalue : (combineNot rest).value with
        | nil =>
            simp [hvalue, hwaits.1, hwaits.2, Noted.noting] at h
        | cons operand more =>
            rw [hvalue] at hrest
            by_cases hoperand : operand.isOperand
            · have hcombined : combineNot rest = ⟨operand :: more, []⟩ := by
                rw [← hvalue, ← h.1]
              rw [combineNot_cons_of_waits hwaits hcombined hoperand]
              obtain ⟨piece, others, rfl, head, tail⟩ := hrest.cons_inv
              exact .cons (.inl (.not hwaits (head.of_isOperand hoperand))) tail
            · simp [hvalue, hwaits.1, hwaits.2, hoperand, Noted.noting] at h
      · rw [combineNot_cons_of_not_waits hwaits] at h ⊢
        refine .cons_single ?_ (ih h)
        rcases item.isOperand_or_isWaiting with hitem | hitem
        · exact .inl (.operand hitem)
        · exact .inr ⟨rfl, hitem, fun hkind => hwaits ⟨hkind, hitem⟩⟩

/-- The item is a chain of operands with combinators of a kind between them,
those on the left being combined first. -/
inductive Chained (kind : NodeKind) : List Item → Item → Prop where
  | operand {item : Item} (h : item.isOperand) : Chained kind [item] item
  | more {piece : List Item} {left item right : Item} (init : Chained kind piece left)
      (h : item.Waits kind) (hright : right.isOperand) :
      Chained kind (piece ++ [item, right]) (item.withOperands [left, right])

/-- A chain of operands is an operand. -/
theorem Chained.isOperand {kind : NodeKind} {piece : List Item} {item : Item}
    (h : Chained kind piece item) : item.isOperand := by
  cases h with
  | operand h => exact h
  | more init h hright => exact Item.isOperand_withOperands ..

/-- Chaining loses nothing of the piece and adds nothing to it. -/
theorem Chained.preorder {kind : NodeKind} {piece : List Item} {item : Item}
    (h : Chained kind piece item) : item.preorder.Perm (piece.flatMap Tree.preorder) := by
  induction h with
  | operand h => simp
  | @more piece left item right init h hright ih =>
      rw [h.preorder_withOperands, List.flatMap_append]
      simp only [List.flatMap_cons, List.flatMap_nil, List.append_nil]
      have hswap : (item.preorder ++ left.preorder).Perm (left.preorder ++ item.preorder) :=
        List.perm_append_comm
      rw [← List.append_assoc]
      refine (hswap.append_right _).trans ?_
      rw [List.append_assoc]
      exact ih.append_right _

section Binary

variable {kind : NodeKind}

/-- The first item is an operand if there is one and it does not wait. -/
theorem headOperand?_eq_some {items : List Item} {item : Item} :
    headOperand? items = some item ↔ ∃ rest, items = item :: rest ∧ item.isOperand := by
  cases items with
  | nil => simp [headOperand?]
  | cons first rest =>
      simp only [headOperand?, List.head?_cons, Option.filter_eq_some_iff, Option.some.injEq,
        List.cons.injEq]
      constructor
      · rintro ⟨rfl, h⟩
        exact ⟨rest, ⟨rfl, rfl⟩, h⟩
      · rintro ⟨_, ⟨rfl, _⟩, h⟩
        exact ⟨rfl, h⟩

/-- The pass goes past an item of another kind. -/
theorem combineBinaryFrom_skip {done rest : List Item} {item : Item} (h : ¬ item.Waits kind) :
    combineBinaryFrom kind done (item :: rest) = combineBinaryFrom kind (item :: done) rest := by
  have hcond : ¬ (item.kind = kind ∧ item.isWaiting) := h
  cases rest with
  | nil => simp [combineBinaryFrom, hcond]
  | cons next rest => simp [combineBinaryFrom, hcond]

/-- The pass gives a waiting item the operands on both sides of it. -/
theorem combineBinaryFrom_take {done rest : List Item} {left item right : Item}
    (h : item.Waits kind) (hleft : left.isOperand) (hright : right.isOperand) :
    combineBinaryFrom kind (left :: done) (item :: right :: rest) =
      combineBinaryFrom kind (item.withOperands [left, right] :: done) rest := by
  have hl : headOperand? (left :: done) = some left := headOperand?_eq_some.mpr ⟨_, rfl, hleft⟩
  have hr : headOperand? [right] = some right := headOperand?_eq_some.mpr ⟨_, rfl, hright⟩
  simp [combineBinaryFrom, h.1, h.2, hl, hr]

/-- The pass makes of a chain the one item that it stands for. -/
theorem Chained.combineBinaryFrom {piece : List Item} {item : Item}
    (h : Chained kind piece item) (done rest : List Item) :
    combineBinaryFrom kind done (piece ++ rest) = combineBinaryFrom kind (item :: done) rest := by
  induction h generalizing rest with
  | operand h =>
      rw [List.singleton_append, combineBinaryFrom_skip fun hw => hw.not_isOperand h]
  | more init h hright ih =>
      rw [List.append_assoc, ih, List.cons_append, List.singleton_append,
        combineBinaryFrom_take h init.isOperand hright]

/-- Items that fall into chains and other combinators are combined without a
note. -/
theorem combineBinary_of_segments {xs ys : List Item}
    (h : Segments (Piece (Chained kind) kind) xs ys) (done : List Item) :
    combineBinaryFrom kind done xs = ⟨done.reverse ++ ys, []⟩ := by
  induction h generalizing done with
  | nil => simp [combineBinaryFrom, pure]
  | @cons piece rest item ys head tail ih =>
      have hstep : combineBinaryFrom kind done (piece ++ rest) =
          combineBinaryFrom kind (item :: done) rest := by
        rcases head with head | ⟨rfl, hwaits, hne⟩
        · exact head.combineBinaryFrom done rest
        · rw [List.singleton_append, combineBinaryFrom_skip fun hw => hne hw.1]
      rw [hstep, ih]
      simp

/-- If nothing is noted, then the items fall into chains and other combinators.
What is behind has been cut up already. -/
theorem segments_of_combineBinaryFrom (pre done : List Item) {xs : List Item}
    (hdone : Segments (Piece (Chained kind) kind) pre done.reverse)
    (h : (combineBinaryFrom kind done xs).notes = []) :
    Segments (Piece (Chained kind) kind) (pre ++ xs) (combineBinaryFrom kind done xs).value := by
  have hpiece : ∀ item : Item, ¬ item.Waits kind → Piece (Chained kind) kind [item] item := by
    intro item hitem
    rcases item.isOperand_or_isWaiting with hop | hwaits
    · exact .inl (.operand hop)
    · exact .inr ⟨rfl, hwaits, fun hkind => hitem ⟨hkind, hwaits⟩⟩
  induction xs using List.twoStepInduction generalizing pre done with
  | nil => simpa [combineBinaryFrom] using hdone
  | singleton item =>
      by_cases hwaits : item.Waits kind
      · simp [combineBinaryFrom, hwaits.1, hwaits.2, missingOperands] at h
      · rw [combineBinaryFrom_skip hwaits, combineBinaryFrom, Noted.value_pure, List.reverse_cons]
        exact hdone.append (.single (hpiece item hwaits))
  | cons_cons item next rest ih ihnext =>
      by_cases hwaits : item.Waits kind
      · have hcond : item.kind = kind ∧ item.isWaiting := hwaits
        cases hleft : headOperand? done with
        | none => simp [combineBinaryFrom, hcond, hleft, missingOperands, Noted.noteAll] at h
        | some left =>
            cases hright : headOperand? [next] with
            | none =>
                simp [combineBinaryFrom, hcond, hleft, hright, missingOperands, Noted.noteAll] at h
            | some right =>
                obtain ⟨done, rfl, hl⟩ := headOperand?_eq_some.mp hleft
                obtain ⟨_, hnext, hr⟩ := headOperand?_eq_some.mp hright
                obtain ⟨rfl, -⟩ := List.cons.inj hnext
                rw [combineBinaryFrom_take hwaits hl hr] at h ⊢
                -- The operand on the left is the last piece of what is behind.
                rw [List.reverse_cons] at hdone
                obtain ⟨pre, piece, rfl, hpre, hlast⟩ := hdone.append_inv
                have hchain := hlast.single_inv.of_isOperand hl
                have hmore := ih (pre ++ (piece ++ [item, next]))
                  (item.withOperands [left, next] :: done) ?_ h
                · simpa using hmore
                · rw [List.reverse_cons]
                  exact hpre.append (.single (.inl (.more hchain hwaits hr)))
      · rw [combineBinaryFrom_skip hwaits] at h ⊢
        have hmore := ihnext next (pre ++ [item]) (item :: done) ?_ h
        · simpa using hmore
        · rw [List.reverse_cons]
          exact hdone.append (.single (hpiece item hwaits))

end Binary

/-- A sequence is one expression: its negated operands fall into conjunctions,
and these make up one disjunction. -/
structure Combines (xs : List Item) (item : Item) : Prop where
  exists_pieces : ∃ ys zs, Segments (Piece Negated .not) xs ys ∧
    Segments (Piece (Chained .and) .and) ys zs ∧ Piece (Chained .or) .or zs item

/-- Cutting up items and combining the pieces neither loses nor doubles a
place. -/
theorem Segments.preorder {R : List Item → Item → Prop} {kind : NodeKind} {xs ys : List Item}
    (hR : ∀ piece item, R piece item → item.preorder.Perm (piece.flatMap Tree.preorder))
    (h : Segments (Piece R kind) xs ys) :
    (ys.flatMap Tree.preorder).Perm (xs.flatMap Tree.preorder) := by
  induction h with
  | nil => exact .refl _
  | @cons piece rest item ys head tail ih =>
      rw [List.flatMap_cons, List.flatMap_append]
      refine List.Perm.append ?_ ih
      rcases head with head | ⟨rfl, -, -⟩
      · exact hR _ _ head
      · simp

/-- The places of an expression are those of the items that it is combined
from. -/
theorem Combines.preorder {xs : List Item} {item : Item} (h : Combines xs item) :
    item.preorder.Perm (xs.flatMap Tree.preorder) := by
  obtain ⟨ys, zs, hnot, hand, hor⟩ := h.exists_pieces
  have hwhole := (Segments.single hor).preorder fun _ _ h => h.preorder
  simp only [List.flatMap_cons, List.flatMap_nil, List.append_nil] at hwhole
  exact hwhole.trans ((hand.preorder fun _ _ h => h.preorder).trans
    (hnot.preorder fun _ _ h => h.preorder))

/-- Only an empty list stands for no members. -/
theorem Segments.eq_nil {β γ : Type} {R : List β → γ → Prop} {xs : List β}
    (h : Segments R xs []) : xs = [] := by
  cases h with
  | nil => rfl

/-- The note about an expression beside the first one. -/
def extraNotes : List Item → List QueryError
  | _ :: extra :: _ => [QueryError.about .unexpectedExpression extra.token]
  | _ => []

/-- Combining notes what the passes note, and each operand that is left over. -/
theorem notes_combine (xs : List Item) :
    (combine xs).notes = (combineItems xs).notes ++ extraNotes (combineItems xs).value := by
  simp only [combine, Noted.notes_bind]
  congr 1
  split
  · next hlong =>
      rw [hlong]
      rfl
  · next hshort =>
      rw [Noted.notes_pure]
      match hvalue : (combineItems xs).value with
      | [] => rfl
      | [_] => rfl
      | first :: extra :: rest => exact absurd hvalue (hshort first extra rest)

/-- Combining gives the first item that the passes leave. -/
theorem value_combine (xs : List Item) : (combine xs).value = (combineItems xs).value.head? := by
  simp only [combine, Noted.value_bind]
  split <;> rfl

/-- The passes run one after the other: negations, conjunctions,
disjunctions. -/
theorem combineItems_eq (xs : List Item) :
    combineItems xs =
      let negated := combineNot xs
      let conjoined := combineBinaryFrom .and [] negated.value
      let disjoined := combineBinaryFrom .or [] conjoined.value
      ⟨disjoined.value, negated.notes ++ (conjoined.notes ++ disjoined.notes)⟩ := rfl

/-- What combines into one item does so without a note. -/
theorem Combines.combine {xs : List Item} {item : Item} (h : Combines xs item) :
    combine xs = ⟨some item, []⟩ := by
  obtain ⟨ys, zs, hnot, hand, hor⟩ := h.exists_pieces
  have hitems : combineItems xs = ⟨[item], []⟩ := by
    have hdisjoined := combineBinary_of_segments (.single hor) []
    have hconjoined := combineBinary_of_segments hand []
    simp only [List.reverse_nil, List.nil_append] at hdisjoined hconjoined
    simp only [combineItems_eq, combineNot_of_segments hnot, hconjoined, hdisjoined]
    rfl
  have hvalue := value_combine xs
  have hnotes := notes_combine xs
  rw [hitems] at hvalue hnotes
  rw [show Graph.combine xs = ⟨(Graph.combine xs).value, (Graph.combine xs).notes⟩ from rfl,
    hvalue, hnotes]
  rfl

/-- If nothing is noted on the way, then there are no items, or they are one
expression. -/
theorem combines_of_combine {xs : List Item} (h : (combine xs).notes = []) :
    xs = [] ∨ ∃ item, Combines xs item := by
  rw [notes_combine, List.append_eq_nil_iff] at h
  obtain ⟨hitems, hextra⟩ := h
  rw [combineItems_eq] at hitems hextra
  simp only [List.append_eq_nil_iff] at hitems hextra
  obtain ⟨hnot, hand, hor⟩ := hitems
  have snot := segments_of_combineNot hnot
  have sand := segments_of_combineBinaryFrom [] [] .nil hand
  have sor := segments_of_combineBinaryFrom [] [] .nil hor
  rw [List.nil_append] at sand sor
  match hvalue :
      (combineBinaryFrom .or [] (combineBinaryFrom .and [] (combineNot xs).value).value).value with
  | [] =>
      rw [hvalue] at sor
      rw [sor.eq_nil] at sand
      rw [sand.eq_nil] at snot
      exact Or.inl snot.eq_nil
  | [item] =>
      rw [hvalue] at sor
      exact Or.inr ⟨item, ⟨_, _, snot, sand, sor.single_inv⟩⟩
  | first :: extra :: rest =>
      rw [hvalue] at hextra
      simp [extraNotes] at hextra

/-- A negation without an operand is a fault of syntax. -/
theorem combineNot_syntactic (xs : List Item) :
    ∀ e ∈ (combineNot xs).notes, e.kind = .syntactic := by
  have hmissing : ∀ token, (QueryError.about .missingOperand token).kind = .syntactic :=
    fun _ => rfl
  induction xs with
  | nil => simp [combineNot]
  | cons item rest ih =>
      simp only [combineNot, Noted.notes_bind, List.mem_append]
      rintro e (he | he)
      · exact ih e he
      · split at he
        · split at he
          · split at he
            · simp at he
            · rw [List.mem_singleton.mp he, hmissing]
          · rw [List.mem_singleton.mp he, hmissing]
        · simp at he

/-- A missing operand is a fault of syntax. -/
theorem missingOperands_syntactic (item : Item) (left right : Option Item) :
    ∀ e ∈ missingOperands item left right, e.kind = .syntactic := by
  intro e he
  simp only [missingOperands, List.mem_append] at he
  rcases he with he | he
  all_goals
    split at he
    · rw [List.mem_singleton.mp he]
      rfl
    · cases he

/-- The passes for two operands note faults of syntax only. -/
theorem combineBinaryFrom_syntactic (kind : NodeKind) (done xs : List Item) :
    ∀ e ∈ (combineBinaryFrom kind done xs).notes, e.kind = .syntactic := by
  fun_induction combineBinaryFrom kind done xs with
  | case1 => simp
  | case2 => exact fun e he => missingOperands_syntactic _ _ _ e he
  | case3 => simp
  | case4 done item next rest h left right hl hr ih => exact ih
  | case5 done item next rest h hnone ih =>
      intro e he
      rcases List.mem_append.mp he with he | he
      · exact missingOperands_syntactic _ _ _ e he
      · exact ih e he
  | case6 done item next rest h ih => exact ih

/-- Whatever is noted in combining is a fault of syntax. -/
theorem combine_syntactic (xs : List Item) : ∀ e ∈ (combine xs).notes, e.kind = .syntactic := by
  intro e he
  rw [notes_combine, combineItems_eq] at he
  simp only [List.mem_append] at he
  rcases he with (he | he | he) | he
  · exact combineNot_syntactic _ e he
  · exact combineBinaryFrom_syntactic _ _ _ e he
  · exact combineBinaryFrom_syntactic _ _ _ e he
  · unfold extraNotes at he
    split at he
    · rw [List.mem_singleton.mp he]
      rfl
    · cases he

end FilterQuery.Graph
