import FilterQuery.Proofs.Convergence
import FilterQuery.Proofs.DistinctErrors

/-!
# Nested queries that cannot be resolved

Where no handler resolves nested queries, each of them gives one error, at its
own token or at that of the filter whose value it is.  Other errors about names
are at other lexemes, and those of combinators are at a combinator or at a gap
between two lexemes that have an item.  A lexeme without one holds no nested
query, since no operand is ever dropped, so that the gap is clear of them.
-/

namespace FilterQuery

open FilterQuery.Graph Grammar

namespace Graph

/-- What combining does with items: none begins to wait, all notes are about
items that wait, and operands do not get lost. -/
structure Leads (items : List Item) (notes : List QueryError) (left : List Item) : Prop where
  waiting : ∀ item ∈ left, ¬ item.isOperand → item ∈ items
  notes : ∀ e ∈ notes, ∃ item ∈ items, ¬ item.isOperand ∧
    ∃ cause, e = QueryError.about cause item.token
  operand : (∃ item ∈ items, item.isOperand) → ∃ item ∈ left, item.isOperand

namespace Leads

variable {items items' left : List Item} {es fs : List QueryError}

/-- Doing nothing leads nowhere else. -/
theorem refl (items : List Item) : Leads items [] items where
  waiting _ hitem _ := hitem
  notes := List.forall_mem_nil _
  operand h := h

/-- What is done after another thing leads further. -/
theorem trans (h : Leads items es items') (h' : Leads items' fs left) :
    Leads items (es ++ fs) left where
  waiting item hitem hwaits := h.waiting item (h'.waiting item hitem hwaits) hwaits
  notes := by
    refine List.forall_mem_append.mpr ⟨h.notes, fun e he => ?_⟩
    obtain ⟨item, hitem, hwaits, hcause⟩ := h'.notes e he
    exact ⟨item, h.waiting item hitem hwaits, hwaits, hcause⟩
  operand hoperand := h'.operand (h.operand hoperand)

/-- The order of the items does not matter. -/
theorem of_perm {left' : List Item} (h : Leads items es left) (hitems : items.Perm items')
    (hleft : left.Perm left') : Leads items' es left' where
  waiting item hitem hwaits :=
    hitems.mem_iff.mp (h.waiting item (hleft.mem_iff.mpr hitem) hwaits)
  notes e he := by
    obtain ⟨item, hitem, hwaits, hcause⟩ := h.notes e he
    exact ⟨item, hitems.mem_iff.mp hitem, hwaits, hcause⟩
  operand := by
    rintro ⟨item, hitem, hoperand⟩
    obtain ⟨item', hitem', hoperand'⟩ := h.operand ⟨item, hitems.mem_iff.mpr hitem, hoperand⟩
    exact ⟨item', hleft.mem_iff.mp hitem', hoperand'⟩

/-- An item takes operands. -/
theorem take (item operand : Item) (operands : List Item) (hleft : ∀ i ∈ left, i ∈ items) :
    Leads items [] (item.withOperands (operand :: operands) :: left) where
  waiting i hi hwaits := by
    rcases List.mem_cons.mp hi with rfl | hi
    · exact absurd (Item.isOperand_withOperands _ _ _) hwaits
    · exact hleft i hi
  notes := List.forall_mem_nil _
  operand _ := ⟨_, List.mem_cons_self, Item.isOperand_withOperands _ _ _⟩

/-- An item that waits is dropped. -/
theorem drop {item : Item} (hwaits : ¬ item.isOperand)
    (hnotes : ∀ e ∈ es, ∃ cause, e = QueryError.about cause item.token) :
    Leads (item :: items) es items where
  waiting i hi _ := List.mem_cons_of_mem _ hi
  notes e he := ⟨item, List.mem_cons_self, hwaits, hnotes e he⟩
  operand := by
    rintro ⟨i, hi, hoperand⟩
    rcases List.mem_cons.mp hi with rfl | hi
    · exact absurd hoperand hwaits
    · exact ⟨i, hi, hoperand⟩

end Leads

/-- The items on both sides of the place. -/
def Sweep.items (s : Sweep) : List Item := s.left ++ s.right

/-- One step of the negations combines no operand away. -/
theorem NotStep.leads {s t : Sweep} {es : List QueryError} (h : NotStep s es t) :
    Leads s.items es t.items := by
  cases h with
  | @take item operand ls rs hwaits hoperand =>
      have htake : Leads (item :: ls ++ operand :: rs) []
          (item.withOperands [operand] :: (ls ++ rs)) :=
        .take item operand [] (by simp +contextual [or_imp])
      exact htake.of_perm (.refl _) List.perm_middle.symm
  | @drop item ls rs hwaits hnone =>
      exact .drop hwaits.not_isOperand fun e he => ⟨_, List.mem_singleton.mp he⟩
  | @pass item ls rs hpass =>
      exact (Leads.refl (item :: (ls ++ rs))).of_perm (.refl _) List.perm_middle.symm

/-- A missing operand is reported at the item that misses it. -/
theorem missingOperands_about (item : Item) (left right : Option Item) :
    ∀ e ∈ missingOperands item left right, ∃ cause, e = QueryError.about cause item.token := by
  have hmissing : ∀ (operand : Option Item) (cause : Cause),
      ∀ e ∈ if operand.isNone then [QueryError.about cause item.token] else [],
        ∃ cause, e = QueryError.about cause item.token := by
    intro operand cause e he
    split at he
    · exact ⟨cause, List.mem_singleton.mp he⟩
    · cases he
  exact List.forall_mem_append.mpr ⟨hmissing left _, hmissing right _⟩

/-- One step of a combinator of two combines no operand away. -/
theorem BinaryStep.leads {kind : NodeKind} {s t : Sweep} {es : List QueryError}
    (h : BinaryStep kind s es t) : Leads s.items es t.items := by
  cases h with
  | @take left item right ls rs hwaits hleft hright =>
      exact .take item left [right] (by simp +contextual [Sweep.items, or_imp])
  | @drop item ls rs hwaits hmissing =>
      have hdrop : Leads (item :: (ls ++ rs))
          (missingOperands item (headOperand? ls) (headOperand? rs)) (ls ++ rs) :=
        .drop hwaits.not_isOperand (missingOperands_about item _ _)
      exact hdrop.of_perm List.perm_middle.symm (.refl _)
  | @pass item ls rs hpass =>
      exact (Leads.refl (ls ++ item :: rs)).of_perm (.refl _) List.perm_middle

/-- What each step does a run does. -/
theorem Runs.leads {step : Sweep → List QueryError → Sweep → Prop} {n : Nat} {s t : Sweep}
    {es : List QueryError} (hstep : ∀ {s es t}, step s es t → Leads s.items es t.items)
    (h : Runs step n s es t) : Leads s.items es t.items := by
  induction h with
  | done s => exact .refl _
  | more first rest ih => exact (hstep first).trans ih

/-- The pass of the negations combines no operand away. -/
theorem combineNot_leads (items : List Item) :
    Leads items (combineNot items).notes (combineNot items).value := by
  have hruns := (combineNot_runs items []).leads NotStep.leads
  refine hruns.of_perm ?_ (.refl _)
  simp [Sweep.items]

/-- The passes of the combinators of two combine no operand away. -/
theorem combineBinary_leads (kind : NodeKind) (items : List Item) :
    Leads items (combineBinaryFrom kind [] items).notes
      (combineBinaryFrom kind [] items).value := by
  obtain ⟨n, -, hruns⟩ := combineBinaryFrom_runs kind [] items
  refine (hruns.leads BinaryStep.leads).of_perm (.refl _) ?_
  simp [Sweep.items]

/-- Combining combines no operand away. -/
theorem combineItems_leads (items : List Item) :
    Leads items (combineItems items).notes (combineItems items).value := by
  rw [combineItems_eq]
  exact (combineNot_leads items).trans
    ((combineBinary_leads .and _).trans (combineBinary_leads .or _))

end Graph

/-- The error is about some of the text of the token. -/
def QueryError.meets (e : QueryError) (t : Token) : Bool :=
  e.index < t.stop && t.position < e.stop

namespace Lexeme

/-- The nested query that the lexeme is, or that is its value. -/
def nestedBlock? : Lexeme → Option NestedBlock
  | .nested block => some block
  | .filter _ block _ => block
  | _ => none

/-- At some depth among the lexemes there is one with a nested query. -/
def HoldsBlock (ls : List Lexeme) (l : Lexeme) (block : NestedBlock) : Prop :=
  Occurs l ls ∧ l.nestedBlock? = some block

/-- Among no lexemes there is no nested query. -/
theorem not_holdsBlock_nil {l : Lexeme} {block : NestedBlock} : ¬ HoldsBlock [] l block := by
  rintro ⟨hl, -⟩
  cases hl

/-- A group holds the nested queries in it. -/
theorem holdsBlock_group {inner : List Lexeme} {token : Token} {l : Lexeme} {block : NestedBlock} :
    HoldsBlock [.group inner token] l block ↔ HoldsBlock inner l block := by
  constructor
  · rintro ⟨hl, hblock⟩
    cases hl with
    | here => cases hblock
    | later _ hl => cases hl
    | inside _ _ hl => exact ⟨hl, hblock⟩
  · exact fun h => ⟨.inside token [] h.1, h.2⟩

/-- A lexeme that is no group holds its own nested query only. -/
theorem HoldsBlock.eq_of_single {l m : Lexeme} {block : NestedBlock} (h : HoldsBlock [m] l block)
    (hm : ∀ inner token, m ≠ .group inner token) : l = m := by
  obtain ⟨hl, -⟩ := h
  cases hl with
  | here => rfl
  | later _ hl => cases hl
  | inside token _ _ => exact absurd rfl (hm _ token)

/-- A nested query is held by the first lexeme or by the rest. -/
theorem HoldsBlock.cons_cases {ls : List Lexeme} {l m : Lexeme} {block : NestedBlock}
    (h : HoldsBlock (m :: ls) l block) : HoldsBlock [m] l block ∨ HoldsBlock ls l block := by
  have hone : Occurs l ([m] ++ ls) := h.1
  exact (occurs_append hone).imp (⟨·, h.2⟩) (⟨·, h.2⟩)

/-- Items stand for lexemes, and those that do not hold a nested query may have
none. -/
inductive Placed : List Lexeme → List Item → Prop where
  | nil : Placed [] []
  | keep {l : Lexeme} {item : Item} {ls : List Lexeme} {items : List Item}
      (htoken : item.token = l.token)
      (hblock : ∀ m block, HoldsBlock [l] m block → item.isOperand) (rest : Placed ls items) :
      Placed (l :: ls) (item :: items)
  | leave {l : Lexeme} {ls : List Lexeme} {items : List Item}
      (hnone : ∀ m block, ¬ HoldsBlock [l] m block) (rest : Placed ls items) :
      Placed (l :: ls) items

/-- The token is within the range and clear of the nested queries in the
lexemes. -/
structure IsClear (start stop : Nat) (ls : List Lexeme) (t : Token) : Prop where
  start : start ≤ t.position
  stop : t.stop ≤ stop
  clear : ∀ l block, HoldsBlock ls l block → l.token.stop ≤ t.position ∨ t.stop ≤ l.token.position

variable {start stop : Nat} {l : Lexeme} {ls : List Lexeme} {items joined : List Item}
  {text : String}

/-- Behind a lexeme a token is clear of what is in it. -/
theorem IsClear.cons {t : Token} (hlies : LiesIn start stop (l :: ls))
    (h : IsClear l.token.stop stop ls t) : IsClear start stop (l :: ls) t where
  start := by
    obtain ⟨hstart, hnonempty, -, -⟩ := hlies
    have hbehind := h.start
    omega
  stop := h.stop
  clear m block hm := by
    rcases hm.cons_cases with hm | hm
    · obtain ⟨-, -, hstop, -⟩ := hlies.first.of_occurs hm.1
      exact .inl (Nat.le_trans hstop h.start)
    · exact h.clear m block hm

/-- Nothing in front of the first item holds a nested query. -/
theorem Placed.head {first : Item} (h : Placed ls (first :: items)) (hlies : LiesIn start stop ls) :
    start ≤ first.token.position ∧ first.token.position ≤ stop ∧
      ∀ l block, HoldsBlock ls l block → first.token.position ≤ l.token.position := by
  generalize hall : first :: items = all at h
  induction h generalizing start with
  | nil => cases hall
  | @keep l item ls rest htoken _ _ _ =>
      obtain ⟨rfl, rfl⟩ := List.cons.inj hall
      rw [htoken]
      refine ⟨hlies.1, Nat.le_trans (Nat.le_of_lt hlies.2.1) hlies.2.2.2.le, ?_⟩
      exact fun m block hm => (hlies.from_head.of_occurs hm.1).1
  | @leave l ls rest hnone _ ih =>
      obtain ⟨hstart, hnonempty, -, hrest⟩ := hlies
      obtain ⟨hfirst, hstop, hclear⟩ := ih hrest hall
      refine ⟨by omega, hstop, fun m block hm => ?_⟩
      rcases hm.cons_cases with hm | hm
      · exact absurd hm (hnone m block)
      · exact hclear m block hm

/-- **Items that wait are clear of nested queries**, also those put into a
gap. -/
theorem Placed.clear (h : Placed ls items) (hjoins : Joins text items joined)
    (hlies : LiesIn start stop ls) :
    ∀ item ∈ joined, ¬ item.isOperand → IsClear start stop ls item.token := by
  induction h generalizing joined start with
  | nil =>
      cases hjoins with
      | nil => exact List.forall_mem_nil _
  | @leave l ls items hnone _ ih =>
      intro item hitem hwaits
      exact (ih hjoins hlies.2.2.2 item hitem hwaits).cons hlies
  | @keep l item ls items htoken hblock hplaced ih =>
      have hitem : ¬ item.isOperand → IsClear start stop (l :: ls) item.token := by
        intro hwaits
        rw [htoken]
        refine ⟨hlies.1, hlies.2.2.2.le, fun m block hm => ?_⟩
        rcases hm.cons_cases with hm | hm
        · exact absurd (hblock m block hm) hwaits
        · exact .inr (hlies.2.2.2.of_occurs hm.1).1
      have hrest : ∀ {js : List Item}, Joins text items js →
          ∀ i ∈ js, ¬ i.isOperand → IsClear start stop (l :: ls) i.token :=
        fun hjs i hi hwaits => (ih hjs hlies.2.2.2 i hi hwaits).cons hlies
      cases hjoins with
      | single => exact List.forall_mem_singleton.mpr hitem
      | apart _ rest => exact List.forall_mem_cons.mpr ⟨hitem, hrest rest⟩
      | @adjacent _ y gap xs js _ hgap rest =>
          refine List.forall_mem_cons.mpr ⟨hitem, ?_⟩
          refine List.forall_mem_cons.mpr ⟨fun _ => ?_, hrest rest⟩
          obtain ⟨hfirst, hstop, hclear⟩ := hplaced.head hlies.2.2.2
          have htokenGap : gap.token = Token.ofRange text l.token.stop y.token.position := by
            rw [← token_said, hgap, ← htoken]
            rfl
          have hend : gap.token.stop = y.token.position := by
            rw [htokenGap]
            exact Nat.add_sub_cancel' hfirst
          refine IsClear.cons hlies ⟨?_, ?_, fun m block hm => .inr ?_⟩
          · rw [htokenGap]
            exact Nat.le_refl _
          · rw [hend]
            exact hstop
          · rw [hend]
            exact hclear m block hm

/-- A nested query is in a lexeme whose item is an operand. -/
theorem Placed.operand {block : NestedBlock} (h : Placed ls items) (hl : HoldsBlock ls l block) :
    ∃ item ∈ items, item.isOperand := by
  induction h with
  | nil => exact absurd hl not_holdsBlock_nil
  | @keep _ item _ _ _ hblock _ ih =>
      rcases hl.cons_cases with hl | hl
      · exact ⟨item, List.mem_cons_self, hblock l block hl⟩
      · obtain ⟨i, hi, hoperand⟩ := ih hl
        exact ⟨i, List.mem_cons_of_mem _ hi, hoperand⟩
  | leave hnone _ ih =>
      rcases hl.cons_cases with hl | hl
      · exact absurd hl (hnone l block)
      · exact ih hl

/-- The items of a lexeme and those of the rest stand for all of them. -/
theorem Placed.append {items' : List Item} (h : Placed [l] items) (h' : Placed ls items') :
    Placed (l :: ls) (items ++ items') := by
  cases h with
  | keep htoken hblock rest =>
      cases rest
      exact .keep htoken hblock h'
  | leave hnone rest =>
      cases rest
      exact .leave hnone h'

/-- Errors of a stretch of text: of those about a lexeme with a nested query
there is one, which says that the query cannot be resolved. -/
structure BlamedOnce (start stop : Nat) (ls : List Lexeme) (es : List QueryError) : Prop where
  within : ∀ e ∈ es, start ≤ e.index ∧ e.stop ≤ stop
  once : ∀ l block, HoldsBlock ls l block → es.filter (·.meets l.token) =
    [QueryError.about (.unresolvableNestedQuery block.query) l.token]

/-- No error meets a token that all of them are apart from. -/
theorem filter_meets_of_apart {es : List QueryError} {t : Token}
    (h : ∀ e ∈ es, e.stop ≤ t.position ∨ t.stop ≤ e.index) : es.filter (·.meets t) = [] := by
  refine List.filter_eq_nil_iff.mpr fun e he => ?_
  have hapart := h e he
  simp only [QueryError.meets, Bool.and_eq_true, decide_eq_true_eq]
  omega

namespace BlamedOnce

variable {es fs : List QueryError}

/-- Where there are no lexemes nothing is blamed. -/
theorem nil (start stop : Nat) : BlamedOnce start stop [] [] where
  within := List.forall_mem_nil _
  once _ _ hl := absurd hl not_holdsBlock_nil

/-- What is blamed on lexemes is blamed on the first or on the rest. -/
theorem cons (hlies : LiesIn start stop (l :: ls))
    (h : BlamedOnce l.token.position l.token.stop [l] es)
    (h' : BlamedOnce l.token.stop stop ls fs) : BlamedOnce start stop (l :: ls) (es ++ fs) := by
  have hfirst := hlies.first
  obtain ⟨hstart, hnonempty, -, hrest⟩ := hlies
  have hle := hrest.le
  refine ⟨List.forall_mem_append.mpr ⟨fun e he => ?_, fun e he => ?_⟩, fun m block hm => ?_⟩
  · have hwithin := h.within e he
    omega
  · have hwithin := h'.within e he
    omega
  · rw [List.filter_append]
    rcases hm.cons_cases with hm | hm
    · obtain ⟨-, -, hstop, -⟩ := hfirst.of_occurs hm.1
      have hbehind : fs.filter (·.meets m.token) = [] :=
        filter_meets_of_apart fun e he => .inr (Nat.le_trans hstop (h'.within e he).1)
      rw [h.once m block hm, hbehind, List.append_nil]
    · obtain ⟨hposition, -⟩ := hrest.of_occurs hm.1
      have hfront : es.filter (·.meets m.token) = [] :=
        filter_meets_of_apart fun e he => .inl (Nat.le_trans (h.within e he).2 hposition)
      rw [h'.once m block hm, hfront, List.nil_append]

/-- Errors at tokens that are clear of nested queries change nothing. -/
theorem append (h : BlamedOnce start stop ls es)
    (hclear : ∀ e ∈ fs, ∃ t cause, IsClear start stop ls t ∧ e = QueryError.about cause t) :
    BlamedOnce start stop ls (es ++ fs) := by
  refine ⟨List.forall_mem_append.mpr ⟨h.within, fun e he => ?_⟩, fun l block hl => ?_⟩
  · obtain ⟨t, cause, ht, rfl⟩ := hclear e he
    exact ⟨ht.start, ht.stop⟩
  · have hnone : fs.filter (·.meets l.token) = [] := by
      refine filter_meets_of_apart fun e he => ?_
      obtain ⟨t, cause, ht, rfl⟩ := hclear e he
      exact (ht.clear l block hl).symm
    rw [List.filter_append, h.once l block hl, hnone, List.append_nil]

/-- A group holds what its body does. -/
theorem group {inner : List Lexeme} {token : Token}
    (h : BlamedOnce token.position token.stop inner es) :
    BlamedOnce token.position token.stop [.group inner token] es where
  within := h.within
  once l block hl := h.once l block (holdsBlock_group.mp hl)

end BlamedOnce

end Lexeme

namespace Draft

open Lexeme (LiesIn HoldsBlock holdsBlock_group IsClear Placed BlamedOnce filter_meets_of_apart)

variable {start stop : Nat} {l : Lexeme} {ls : List Lexeme} {items : List Item} {text : String}
  {known : Knowledge}

/-- Where nested queries cannot be resolved, the errors about a lexeme that is
no group are at its token, and a nested query in it has the one that says so. -/
theorem faults_cases (hnone : known.resolvesNested = false)
    (hsingle : ∀ inner token, l ≠ .group inner token) :
    (∀ e ∈ known.faults l, ∃ cause, e = QueryError.about cause l.token) ∧
      ∀ block, l.nestedBlock? = some block →
        known.faults l = [QueryError.about (.unresolvableNestedQuery block.query) l.token] := by
  cases l with
  | group inner token => exact absurd rfl (hsingle inner token)
  | nested block =>
      simp only [Knowledge.faults, hnone]
      refine ⟨fun e he => ⟨_, List.mem_singleton.mp he⟩, ?_⟩
      rintro _ ⟨⟩
      rfl
  | filter f block token =>
      cases block with
      | none =>
          refine ⟨fun e he => ?_, ?_⟩
          · rw [Knowledge.faults] at he
            obtain ⟨cause, -, rfl⟩ := List.mem_map.mp he
            exact ⟨cause, rfl⟩
          · rintro block ⟨⟩
      | some block =>
          simp only [Knowledge.faults, hnone]
          refine ⟨fun e he => ⟨_, List.mem_singleton.mp he⟩, ?_⟩
          rintro _ ⟨⟩
          rfl
  | _ => simp [Knowledge.faults, Lexeme.nestedBlock?]

/-- A single lexeme is blamed once if it holds a nested query. -/
theorem faults_blamedOnce (hnone : known.resolvesNested = false)
    (hsingle : ∀ inner token, l ≠ .group inner token)
    (hnonempty : l.token.position < l.token.stop) :
    BlamedOnce l.token.position l.token.stop [l] (known.faults l) := by
  obtain ⟨hfaults, hblock⟩ := faults_cases hnone hsingle
  refine ⟨fun e he => ?_, fun m block hm => ?_⟩
  · obtain ⟨cause, rfl⟩ := hfaults e he
    exact ⟨Nat.le_refl _, Nat.le_refl _⟩
  · obtain rfl := hm.eq_of_single hsingle
    rw [hblock block hm.2]
    have hmeets : QueryError.meets (QueryError.about (.unresolvableNestedQuery block.query) m.token)
        m.token = true := by
      simpa [QueryError.meets, QueryError.about, QueryError.stop, Token.stop] using hnonempty
    exact List.filter_eq_self.mpr (List.forall_mem_singleton.mpr hmeets)

/-- A lexeme that says something and is no group. -/
theorem blamed_of_reads (hnone : known.resolvesNested = false) {t : Tree Content}
    (h : Reads text l t) (hsingle : ∀ inner token, l ≠ .group inner token)
    (hnonempty : l.token.position < l.token.stop) :
    Makes known (addLexeme known text l) fun item? _ es =>
      BlamedOnce l.token.position l.token.stop [l] es ∧ Placed [l] item?.toList := by
  refine (addLexeme_makes l).mono fun item? ps es hspelled => ?_
  obtain ⟨item, rfl, rfl, -, rfl⟩ := hspelled.read t h
  refine ⟨faults_blamedOnce hnone hsingle hnonempty, .keep ?_ (fun m block hm => ?_) .nil⟩
  · rw [← token_said, h.token]
  · obtain rfl := hm.eq_of_single hsingle
    obtain ⟨-, hblock⟩ := hm
    generalize hsaid : said item = t at h
    cases h with
    | operand h => exact Operand.isOperand (hsaid ▸ h)
    | and _ => cases hblock
    | or _ => cases hblock
    | not _ => cases hblock

/-- Composing the items of lexemes gives errors that are clear of nested
queries, and something is left where there is a nested query. -/
theorem compose_clear (hplaced : Placed ls items) (hlies : LiesIn start stop ls) :
    Makes known (compose text items) fun root _ es =>
      (∀ e ∈ es, ∃ t cause, IsClear start stop ls t ∧ e = QueryError.about cause t) ∧
        (root = none → ∀ l block, ¬ HoldsBlock ls l block) := by
  refine (compose_makes items).mono ?_
  rintro root ps es ⟨joined, hjoins, -, rfl, rfl⟩
  have hleads := combineItems_leads joined
  constructor
  · rw [notes_combine, extraNotes_of_length (combineItems_leaves hjoins.isChain.2).1,
      List.append_nil]
    intro e he
    obtain ⟨item, hitem, hwaits, cause, rfl⟩ := hleads.notes e he
    exact ⟨item.token, cause, hplaced.clear hjoins hlies item hitem hwaits, rfl⟩
  · intro hroot l block hl
    obtain ⟨item, hitem, hoperand⟩ := hplaced.operand hl
    obtain ⟨left, hleft, -⟩ := hleads.operand ⟨item, hjoins.subset hitem, hoperand⟩
    rw [value_combine, List.head?_eq_none_iff] at hroot
    rw [hroot] at hleft
    cases hleft

mutual

/-- **Drafting a lexeme blames each nested query in it once.** -/
theorem addLexeme_blames (hnone : known.resolvesNested = false) : (l : Lexeme) →
    l.token.position < l.token.stop → l.Encloses →
    Makes known (addLexeme known text l) fun item? _ es =>
      BlamedOnce l.token.position l.token.stop [l] es ∧ Placed [l] item?.toList
  | .group inner token, _, hencloses => by
      rw [addLexeme]
      refine (addLexemes_blames hnone inner hencloses.2).bind fun items ps es hinner => ?_
      obtain ⟨hblamed, hplaced⟩ := hinner
      refine (compose_clear hplaced hencloses.2).bind fun root qs fs hbody => ?_
      obtain ⟨hclear, hleft⟩ := hbody
      have hgroup := (hblamed.append hclear).group
      cases root with
      | none =>
          refine .pure ⟨by rwa [List.append_nil], .leave (fun m block hm => ?_) .nil⟩
          exact hleft rfl m block (holdsBlock_group.mp hm)
      | some child =>
          refine Makes.bind (add_makesItem rfl) ?_
          rintro item rs gs ⟨hitem, -, rfl⟩
          refine .pure ⟨by rwa [List.append_nil, List.append_nil], .keep ?_ (fun _ _ _ => ?_) .nil⟩
          · exact congrArg Content.token (content_of_said hitem)
          · exact Item.isOperand_withOperands item child []
  | .and token, hnonempty, _ => blamed_of_reads hnone (.and token) (by simp) hnonempty
  | .or token, hnonempty, _ => blamed_of_reads hnone (.or token) (by simp) hnonempty
  | .not token, hnonempty, _ => blamed_of_reads hnone (.not token) (by simp) hnonempty
  | .nested block, hnonempty, _ =>
      blamed_of_reads hnone (.operand (.nested block)) (by simp) hnonempty
  | .filter f none token, hnonempty, _ =>
      blamed_of_reads hnone (.operand (.filter f token)) (by simp) hnonempty
  | .filter f (some block) token, hnonempty, _ =>
      blamed_of_reads hnone (.operand (.nestedFilter f block token)) (by simp) hnonempty
  | .toggle name token, hnonempty, _ =>
      blamed_of_reads hnone (.operand (.toggle name token)) (by simp) hnonempty
  | .comment content token, hnonempty, _ =>
      blamed_of_reads hnone (.operand (.comment content token)) (by simp) hnonempty
  | .word s token, hnonempty, _ =>
      blamed_of_reads hnone (.operand (.word s token)) (by simp) hnonempty

/-- **Drafting lexemes blames each nested query in them once.** -/
theorem addLexemes_blames (hnone : known.resolvesNested = false) : (ls : List Lexeme) →
    ∀ {start stop}, LiesIn start stop ls →
    Makes known (addLexemes known text ls) fun items _ es =>
      BlamedOnce start stop ls es ∧ Placed ls items
  | [], start, stop, _ => by
      rw [addLexemes]
      exact .pure ⟨.nil start stop, .nil⟩
  | l :: ls, start, stop, hlies => by
      rw [addLexemes]
      refine (addLexeme_blames hnone l hlies.2.1 hlies.2.2.1).bind fun item? ps es hl => ?_
      refine (addLexemes_blames hnone ls hlies.2.2.2).bind fun items qs fs hls => ?_
      refine .pure ⟨?_, hl.2.append hls.2⟩
      rw [List.append_nil]
      exact .cons hlies hl.1 hls.1

end

/-- **Each nested query is blamed once**, also in a text with faults of
syntax. -/
theorem ofLexemes_blames (text : String) (hnone : known.resolvesNested = false)
    (hlies : LiesIn start stop ls) :
    BlamedOnce start stop ls (ofLexemes known text ls).errors :=
  ofLexemes_errors <| (addLexemes_blames hnone ls hlies).bind fun _ _ _ hls =>
    (compose_clear hls.2 hlies).mono fun _ _ _ hbody => hls.1.append hbody.1

/-- Nothing on the way to evaluation is about a lexeme with a nested query. -/
theorem notes_apart (text : String) (hnone : known.resolvesNested = false)
    (hlies : LiesIn 0 stop ls) {block : NestedBlock} (hl : HoldsBlock ls l block) :
    (ofLexemes known text ls).evaluation.notes.filter (·.meets l.token) = [] := by
  by_cases hfatal : (ofLexemes known text ls).errors.any (·.isFatal) = true
  · rw [Draft.evaluation, if_pos hfatal]
    rfl
  · obtain ⟨combinators, hsettled, hnotes⟩ := settled_of_no_fatal hlies (by simpa using hfatal)
    have honce := (ofLexemes_blames text hnone hlies).once l block hl
    have hmem : QueryError.about (.unresolvableNestedQuery block.query) l.token ∈
        (ofLexemes known text ls).errors.filter (·.meets l.token) := by
      rw [honce]
      exact List.mem_cons_self
    refine filter_meets_of_apart fun e he => ?_
    exact (hsettled.apart e (hnotes.subset he) _ (List.mem_filter.mp hmem).1).symm

end Draft

/-- **Each part of a query gives at most one error.**  No two errors of a text
without a fatal one are at the same place.  Where no handler resolves nested
queries, each of them, alone, below an aggregator or as the value of a filter,
gives one error, and no other is about any of the text that it, its aggregator
and its filter take. -/
theorem errors_at_distinct_places {α : Type} (engine : Engine α) {text : String}
    {ls : List Lexeme} (hscan : Lexeme.scan engine.alphabet text = .ok ls) :
    let draft := Draft.ofLexemes engine.knowledge text ls
    let errors := draft.errors ++ draft.evaluation.notes
    ((∀ e ∈ errors, e.isFatal = false) → (errors.map QueryError.place).Nodup) ∧
      (engine.nestedHandler = none → ∀ l block, Lexeme.HoldsBlock ls l block →
        errors.filter (·.meets l.token) =
          [QueryError.about (.unresolvableNestedQuery block.query) l.token]) := by
  intro draft errors
  have hlies := Lexeme.liesIn_of_scan hscan
  refine ⟨fun hclean => ?_, fun hhandler l block hl => ?_⟩
  · exact Draft.places_nodup hlies fun e he => hclean e (List.mem_append_left _ he)
  · have hnone : engine.knowledge.resolvesNested = false := by
      rw [Engine.knowledge, hhandler]
      rfl
    have hdraft := (Draft.ofLexemes_blames text hnone hlies).once l block hl
    have hnotes := Draft.notes_apart text hnone hlies hl
    rw [List.filter_append, hdraft, hnotes, List.append_nil]

/-- The text `({a} first{b}) or n={c}`, for an engine that resolves nothing: one
error for each nested query, and one for the `or`. -/
theorem errors_of_three_queries :
    let engine : Engine Nat := {}
    let text := "(\x7ba\x7d first\x7bb\x7d) or n=\x7bc\x7d"
    ∃ ls, Lexeme.scan engine.alphabet text = .ok ls ∧
      let draft := Draft.ofLexemes engine.knowledge text ls
      let errors := draft.errors ++ draft.evaluation.notes
      errors.map QueryError.place = [(1, 3), (5, 8), (18, 5), (15, 2)] ∧
        (errors.map QueryError.place).Nodup ∧
        ∀ l block, Lexeme.HoldsBlock ls l block → errors.filter (·.meets l.token) =
          [QueryError.about (.unresolvableNestedQuery block.query) l.token] := by
  intro engine text
  have hrun : (Lexeme.scan engine.alphabet text).toOption.any (fun ls =>
      let draft := Draft.ofLexemes engine.knowledge text ls
      let errors := draft.errors ++ draft.evaluation.notes
      errors.all (!·.isFatal) &&
        errors.map QueryError.place == [(1, 3), (5, 8), (18, 5), (15, 2)]) = true := by
    decide +kernel
  cases hscan : Lexeme.scan engine.alphabet text with
  | error e =>
      rw [hscan] at hrun
      cases hrun
  | ok ls =>
      rw [hscan] at hrun
      obtain ⟨hclean, hplaces⟩ := Bool.and_eq_true_iff.mp hrun
      obtain ⟨hnodup, honce⟩ := errors_at_distinct_places engine hscan
      refine ⟨ls, rfl, eq_of_beq hplaces, hnodup fun e he => ?_, honce rfl⟩
      simpa using List.all_eq_true.mp hclean e he

end FilterQuery
