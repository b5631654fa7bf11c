import FilterQuery.Proofs.Mixtures

/-!
# Combining comes to an end

A pass over the items of a sequence stands between two of them and looks at the
next one: a waiting combinator takes the operands beside it, or is dropped with
a note if one of them is missing, and any other item is passed.  The pass of the
negations goes from right to left, the other two from left to right.

What makes the three passes leave one expression at most is that no two
neighbours are adjacent: between an operand and what may follow it there is a
combinator of two that waits.  It holds once the `and`s that are left out have
been put in, and each step keeps it, also when a dropped combinator brings its
neighbours together.  When no combinator waits any more, it leaves room for one
item only.
-/

namespace FilterQuery

namespace Graph

/-- A place between items: those on the left of it, the nearest first, and those
on the right. -/
structure Sweep where
  left : List Item
  right : List Item

/-- One step of the pass of the negations: the item on the left takes its
operand, is dropped without one, or is passed. -/
inductive NotStep : Sweep → List QueryError → Sweep → Prop where
  | take {item operand : Item} {ls rs : List Item} (h : item.Waits .not)
      (hoperand : operand.isOperand) :
      NotStep ⟨item :: ls, operand :: rs⟩ [] ⟨ls, item.withOperands [operand] :: rs⟩
  | drop {item : Item} {ls rs : List Item} (h : item.Waits .not) (hnone : headOperand? rs = none) :
      NotStep ⟨item :: ls, rs⟩ [QueryError.about .missingOperand item.token] ⟨ls, rs⟩
  | pass {item : Item} {ls rs : List Item} (h : ¬ item.Waits .not) :
      NotStep ⟨item :: ls, rs⟩ [] ⟨ls, item :: rs⟩

/-- One step of the pass of the combinators of a kind: the item on the right
takes both of its operands, is dropped if one is missing, or is passed. -/
inductive BinaryStep (kind : NodeKind) : Sweep → List QueryError → Sweep → Prop where
  | take {left item right : Item} {ls rs : List Item} (h : item.Waits kind)
      (hleft : left.isOperand) (hright : right.isOperand) :
      BinaryStep kind ⟨left :: ls, item :: right :: rs⟩ []
        ⟨item.withOperands [left, right] :: ls, rs⟩
  | drop {item : Item} {ls rs : List Item} (h : item.Waits kind)
      (hnone : headOperand? ls = none ∨ headOperand? rs = none) :
      BinaryStep kind ⟨ls, item :: rs⟩
        (missingOperands item (headOperand? ls) (headOperand? rs)) ⟨ls, rs⟩
  | pass {item : Item} {ls rs : List Item} (h : ¬ item.Waits kind) :
      BinaryStep kind ⟨ls, item :: rs⟩ [] ⟨item :: ls, rs⟩

section Runs

variable {step : Sweep → List QueryError → Sweep → Prop} {n m : Nat} {s t u : Sweep}
  {es fs : List QueryError}

/-- So many steps in a row, and all that is noted on the way. -/
inductive Runs (step : Sweep → List QueryError → Sweep → Prop) :
    Nat → Sweep → List QueryError → Sweep → Prop where
  | done (s : Sweep) : Runs step 0 s [] s
  | more {n : Nat} {s t u : Sweep} {es fs : List QueryError} (first : step s es t)
      (rest : Runs step n t fs u) : Runs step (n + 1) s (es ++ fs) u

/-- One step is a run. -/
theorem Runs.single (h : step s es t) : Runs step 1 s es t := by
  have hone := Runs.more h (.done t)
  rwa [List.append_nil] at hone

/-- A run may follow another one. -/
theorem Runs.trans (h : Runs step n s es t) (h' : Runs step m t fs u) :
    Runs step (n + m) s (es ++ fs) u := by
  induction h with
  | done s => simpa using h'
  | more first rest ih =>
      rw [List.append_assoc, Nat.add_right_comm]
      exact .more first (ih h')

/-- What each step keeps holds at the end if it holds at the start. -/
theorem Runs.keeps (h : Runs step n s es t) (holds : Sweep → Prop)
    (hstep : ∀ s es t, step s es t → holds s → holds t) (hs : holds s) : holds t := by
  induction h with
  | done s => exact hs
  | more first rest ih => exact ih (hstep _ _ _ first hs)

/-- What holds of all that a step notes holds of all that a run notes. -/
theorem Runs.notes (h : Runs step n s es t) (sort : QueryError → Prop)
    (hstep : ∀ s es t, step s es t → ∀ e ∈ es, sort e) : ∀ e ∈ es, sort e := by
  induction h with
  | done s => exact List.forall_mem_nil _
  | more first rest ih => exact List.forall_mem_append.mpr ⟨hstep _ _ _ first, ih⟩

/-- Every run, however far it has come, goes on to this end, noting this in all,
and never makes more steps than the bound. -/
def Terminates (step : Sweep → List QueryError → Sweep → Prop) (start : Sweep)
    (notes : List QueryError) (finish : Sweep) (bound : Nat) : Prop :=
  ∀ n es s, Runs step n start es s →
    ∃ m fs, Runs step m s fs finish ∧ es ++ fs = notes ∧ n + m ≤ bound

/-- Where a step is determined by what it starts from, one run to a place
without a step is the longest of all, and every other run is a part of it. -/
theorem Runs.terminates {start finish : Sweep} {notes : List QueryError}
    (hdet : ∀ s es t fs u, step s es t → step s fs u → es = fs ∧ t = u)
    (hstuck : ∀ es t, ¬ step finish es t) (h : Runs step n start notes finish) (hn : n ≤ m) :
    Terminates step start notes finish m := by
  intro k es s hrun
  induction hrun generalizing n m notes with
  | done s => exact ⟨n, notes, h, rfl, by omega⟩
  | more first rest ih =>
      cases h with
      | done s => exact absurd first (hstuck _ _)
      | @more n' _ _ _ es' fs' first' rest' =>
          obtain ⟨rfl, rfl⟩ := hdet _ _ _ _ _ first first'
          obtain ⟨l, gs, hrest, rfl, hl⟩ := ih rest' (le_refl n')
          exact ⟨l, gs, hrest, List.append_assoc .., by omega⟩

end Runs

/-- There is no first operand exactly if the items do not begin with one. -/
theorem headOperand?_eq_none {items : List Item} :
    headOperand? items = none ↔ ∀ item ∈ items.head?, ¬ item.isOperand := by
  simp [headOperand?]

/-- A step of the negations has one outcome. -/
theorem NotStep.unique {s t u : Sweep} {es fs : List QueryError} (h : NotStep s es t)
    (h' : NotStep s fs u) : es = fs ∧ t = u := by
  have hhead : ∀ {operand : Item} {rs : List Item}, operand.isOperand →
      headOperand? (operand :: rs) ≠ none := by
    intro operand rs hoperand hnone
    exact headOperand?_eq_none.mp hnone operand rfl hoperand
  cases h with
  | take hwaits hoperand =>
      cases h' with
      | take _ _ => exact ⟨rfl, rfl⟩
      | drop _ hnone => exact absurd hnone (hhead hoperand)
      | pass hpass => exact absurd hwaits hpass
  | drop hwaits hnone =>
      cases h' with
      | take _ hoperand => exact absurd hnone (hhead hoperand)
      | drop _ _ => exact ⟨rfl, rfl⟩
      | pass hpass => exact absurd hwaits hpass
  | pass hpass =>
      cases h' with
      | take hwaits _ => exact absurd hwaits hpass
      | drop hwaits _ => exact absurd hwaits hpass
      | pass _ => exact ⟨rfl, rfl⟩

/-- A step of a combinator of two has one outcome. -/
theorem BinaryStep.unique {kind : NodeKind} {s t u : Sweep} {es fs : List QueryError}
    (h : BinaryStep kind s es t) (h' : BinaryStep kind s fs u) : es = fs ∧ t = u := by
  have hheads : ∀ {left right : Item} {ls rs : List Item}, left.isOperand → right.isOperand →
      ¬ (headOperand? (left :: ls) = none ∨ headOperand? (right :: rs) = none) := by
    rintro left right ls rs hleft hright (hnone | hnone)
    · exact headOperand?_eq_none.mp hnone left rfl hleft
    · exact headOperand?_eq_none.mp hnone right rfl hright
  cases h with
  | take hwaits hleft hright =>
      cases h' with
      | take _ _ _ => exact ⟨rfl, rfl⟩
      | drop _ hnone => exact absurd hnone (hheads hleft hright)
      | pass hpass => exact absurd hwaits hpass
  | drop hwaits hnone =>
      cases h' with
      | take _ hleft hright => exact absurd hnone (hheads hleft hright)
      | drop _ _ => exact ⟨rfl, rfl⟩
      | pass hpass => exact absurd hwaits hpass
  | pass hpass =>
      cases h' with
      | take hwaits _ _ => exact absurd hwaits hpass
      | drop hwaits _ => exact absurd hwaits hpass
      | pass _ => exact ⟨rfl, rfl⟩

/-- **The pass of the negations as a run**, one step for each item, whatever
stands on the left. -/
theorem combineNot_runs (items ls : List Item) :
    Runs NotStep items.length ⟨items.reverse ++ ls, []⟩ (combineNot items).notes
      ⟨ls, (combineNot items).value⟩ := by
  induction items generalizing ls with
  | nil => exact .done _
  | cons item rest ih =>
      have hrest : Runs NotStep rest.length ⟨(item :: rest).reverse ++ ls, []⟩
          (combineNot rest).notes ⟨item :: ls, (combineNot rest).value⟩ := by
        rw [List.reverse_cons, List.append_assoc]
        exact ih (item :: ls)
      have hlast : ∃ es, (combineNot (item :: rest)).notes = (combineNot rest).notes ++ es ∧
          NotStep ⟨item :: ls, (combineNot rest).value⟩ es
            ⟨ls, (combineNot (item :: rest)).value⟩ := by
        by_cases hwaits : item.Waits .not
        · cases hvalue : (combineNot rest).value with
          | nil =>
              refine ⟨[QueryError.about .missingOperand item.token], ?_, ?_⟩
              · simp [combineNot, hvalue, hwaits.1, hwaits.2, Noted.noting]
              · have hstep : NotStep ⟨item :: ls, []⟩ _ ⟨ls, []⟩ := .drop hwaits rfl
                simpa [combineNot, hvalue, hwaits.1, hwaits.2, Noted.noting] using hstep
          | cons operand more =>
              by_cases hoperand : operand.isOperand
              · refine ⟨[], ?_, ?_⟩
                · simp [combineNot, hvalue, hwaits.1, hwaits.2, hoperand]
                · have hstep : NotStep ⟨item :: ls, operand :: more⟩ _ _ := .take hwaits hoperand
                  simpa [combineNot, hvalue, hwaits.1, hwaits.2, hoperand] using hstep
              · have hnone : headOperand? (operand :: more) = none :=
                  headOperand?_eq_none.mpr (by simpa using hoperand)
                refine ⟨[QueryError.about .missingOperand item.token], ?_, ?_⟩
                · simp [combineNot, hvalue, hwaits.1, hwaits.2, hoperand, Noted.noting]
                · have hstep : NotStep ⟨item :: ls, operand :: more⟩ _ _ := .drop hwaits hnone
                  simpa [combineNot, hvalue, hwaits.1, hwaits.2, hoperand, Noted.noting] using hstep
        · rw [combineNot_cons_of_not_waits hwaits]
          exact ⟨[], (List.append_nil _).symm, .pass hwaits⟩
      obtain ⟨es, hnotes, hstep⟩ := hlast
      rw [hnotes]
      exact hrest.trans (.single hstep)

/-- **The pass of the combinators of a kind as a run**, of at most one step for
each item. -/
theorem combineBinaryFrom_runs (kind : NodeKind) (done items : List Item) :
    ∃ n ≤ items.length, Runs (BinaryStep kind) n ⟨done, items⟩
      (combineBinaryFrom kind done items).notes
      ⟨(combineBinaryFrom kind done items).value.reverse, []⟩ := by
  fun_induction combineBinaryFrom kind done items with
  | case1 done =>
      refine ⟨0, le_refl 0, ?_⟩
      rw [Noted.value_pure, List.reverse_reverse]
      exact .done _
  | case2 done item hitem =>
      have hwaits : item.Waits kind := by simpa [Item.Waits] using hitem
      have hstep : BinaryStep kind ⟨done, [item]⟩ _ ⟨done, []⟩ := .drop hwaits (.inr rfl)
      refine ⟨1, le_refl 1, ?_⟩
      rw [List.reverse_reverse]
      exact .single hstep
  | case3 done item hitem =>
      have hwaits : ¬ item.Waits kind := by simpa [Item.Waits] using hitem
      have hstep : BinaryStep kind ⟨done, [item]⟩ [] ⟨item :: done, []⟩ := .pass hwaits
      refine ⟨1, le_refl 1, ?_⟩
      simpa using Runs.single hstep
  | case4 done item next rest hitem left right hright hleft ih =>
      have hwaits : item.Waits kind := by simpa [Item.Waits] using hitem
      obtain ⟨behind, rfl, hl⟩ := headOperand?_eq_some.mp hleft
      obtain ⟨_, hnext, hr⟩ := headOperand?_eq_some.mp hright
      obtain ⟨rfl, -⟩ := List.cons.inj hnext
      obtain ⟨n, hn, hruns⟩ := ih
      refine ⟨n + 1, by simp only [List.length_cons]; omega, ?_⟩
      exact .more (.take hwaits hl hr) hruns
  | case5 done item next rest hitem hnone ih =>
      have hwaits : item.Waits kind := by simpa [Item.Waits] using hitem
      have hmissing : headOperand? done = none ∨ headOperand? (next :: rest) = none := by
        cases hleft : headOperand? done with
        | none => exact .inl rfl
        | some left =>
            cases hright : headOperand? (next :: rest) with
            | none => exact .inr rfl
            | some right => exact absurd hright (hnone left right hleft)
      obtain ⟨n, hn, hruns⟩ := ih
      exact ⟨n + 1, by simp only [List.length_cons] at hn ⊢; omega,
        .more (.drop hwaits hmissing) hruns⟩
  | case6 done item next rest hitem ih =>
      have hwaits : ¬ item.Waits kind := by simpa [Item.Waits] using hitem
      obtain ⟨n, hn, hruns⟩ := ih
      exact ⟨n + 1, by simp only [List.length_cons] at hn ⊢; omega, .more (.pass hwaits) hruns⟩

/-- The pass of the negations over items comes to its end. -/
def NegationsEnd (items : List Item) : Prop :=
  Terminates NotStep ⟨items.reverse, []⟩ (combineNot items).notes ⟨[], (combineNot items).value⟩
    items.length

/-- The pass of the combinators of a kind over items comes to its end. -/
def CombinatorsEnd (kind : NodeKind) (items : List Item) : Prop :=
  Terminates (BinaryStep kind) ⟨[], items⟩ (combineBinaryFrom kind [] items).notes
    ⟨(combineBinaryFrom kind [] items).value.reverse, []⟩ items.length

/-- The pass of the negations ends. -/
theorem negationsEnd (items : List Item) : NegationsEnd items := by
  have hruns := combineNot_runs items []
  rw [List.append_nil] at hruns
  refine hruns.terminates (fun _ _ _ _ _ => NotStep.unique) ?_ (le_refl _)
  intro es t hstep
  cases hstep

/-- The pass of a combinator of two ends. -/
theorem combinatorsEnd (kind : NodeKind) (items : List Item) : CombinatorsEnd kind items := by
  obtain ⟨n, hn, hruns⟩ := combineBinaryFrom_runs kind [] items
  refine hruns.terminates (fun _ _ _ _ _ => BinaryStep.unique) ?_ hn
  intro es t hstep
  generalize (combineBinaryFrom kind [] items).value.reverse = ls at hstep
  cases hstep

/-- Of two neighbours, behind an operand there is a combinator of two that
waits. -/
def Item.IsApart (left right : Item) : Prop :=
  left.isOperand → ∃ kind, kind.isBinaryCombinator ∧ right.Waits kind

namespace Item.IsApart

variable {left right : Item}

/-- Items that are not adjacent are apart. -/
theorem of_not_isAdjacent (h : ¬ left.isAdjacent right) : left.IsApart right := by
  intro hleft
  have hright : right.isWaiting ∧ right.kind.isBinaryCombinator := by
    simpa [isAdjacent, hleft] using h
  exact ⟨right.kind, hright.2, rfl, hright.1⟩

theorem of_not_isOperand (h : ¬ left.isOperand) : left.IsApart right := fun hleft => absurd hleft h

/-- What stands in front of anything but a combinator of two is no operand. -/
theorem not_isOperand (h : left.IsApart right)
    (hright : ∀ kind, kind.isBinaryCombinator → ¬ right.Waits kind) : ¬ left.isOperand := by
  intro hleft
  obtain ⟨kind, hkind, hwaits⟩ := h hleft
  exact hright kind hkind hwaits

/-- What may stand behind an operand may stand behind anything. -/
theorem behind (h : left.IsApart right) (hleft : left.isOperand) (other : Item) :
    other.IsApart right := fun _ => h hleft

end Item.IsApart

/-- No two neighbours are adjacent. -/
structure Sweep.IsSpaced (s : Sweep) : Prop where
  left : s.left.IsChain fun right left => left.IsApart right
  right : s.right.IsChain Item.IsApart
  between : ∀ l ∈ s.left.head?, ∀ r ∈ s.right.head?, l.IsApart r

/-- No combinator of this kind waits for its operands. -/
def NoneWaits (kind : NodeKind) (items : List Item) : Prop := ∀ item ∈ items, ¬ item.Waits kind

namespace Sweep.IsSpaced

variable {item : Item} {ls rs : List Item}

theorem of_chain {items : List Item} (h : items.IsChain Item.IsApart) : IsSpaced ⟨[], items⟩ :=
  ⟨.nil, h, by simp⟩

/-- Items that are apart have a place with none on its right. -/
theorem of_reverse_chain {items : List Item} (h : items.IsChain Item.IsApart) :
    IsSpaced ⟨items.reverse, []⟩ :=
  ⟨List.isChain_reverse.mpr h, .nil, by simp⟩

/-- It does not matter where the place is. -/
theorem move : IsSpaced ⟨item :: ls, rs⟩ ↔ IsSpaced ⟨ls, item :: rs⟩ := by
  constructor
  · intro h
    obtain ⟨hitem, hls⟩ := List.isChain_cons.mp h.left
    refine ⟨hls, List.isChain_cons.mpr ⟨h.between item rfl, h.right⟩, ?_⟩
    rintro l hl _ ⟨⟩
    exact hitem l hl
  · intro h
    obtain ⟨hitem, hrs⟩ := List.isChain_cons.mp h.right
    refine ⟨List.isChain_cons.mpr ⟨fun l hl => h.between l hl item rfl, h.left⟩, hrs, ?_⟩
    rintro _ ⟨⟩ r hr
    exact hitem r hr

/-- The item may be taken away if what is in front of it is apart from what is
behind it. -/
theorem drop (h : IsSpaced ⟨ls, item :: rs⟩)
    (hbetween : ∀ l ∈ ls.head?, ∀ r ∈ rs.head?, l.IsApart item → l.IsApart r) :
    IsSpaced ⟨ls, rs⟩ := by
  obtain ⟨hitem, hrs⟩ := List.isChain_cons.mp h.right
  exact ⟨h.left, hrs, fun l hl r hr => hbetween l hl r hr (h.between l hl item rfl)⟩

end Sweep.IsSpaced

section Steps

variable {kind : NodeKind} {s t : Sweep} {es : List QueryError}

/-- A combinator of two is apart from what is in front of it. -/
theorem Item.Waits.isApart {item left : Item} (h : item.Waits kind)
    (hkind : kind.isBinaryCombinator) : left.IsApart item := fun _ => ⟨kind, hkind, h⟩

/-- An item waits for the operands of one kind. -/
theorem Item.Waits.unique {item : Item} {kind' : NodeKind} (h : item.Waits kind)
    (h' : item.Waits kind') : kind = kind' := h.1.symm.trans h'.1

/-- **A step of the negations keeps neighbours apart.** -/
theorem NotStep.isSpaced (h : NotStep s es t) (hs : s.IsSpaced) : t.IsSpaced := by
  have hnot : ∀ {item left : Item}, item.Waits .not → left.IsApart item → ¬ left.isOperand := by
    intro item left hwaits hleft
    refine hleft.not_isOperand fun kind hkind hwaits' => ?_
    rw [← hwaits.unique hwaits'] at hkind
    cases hkind
  cases h with
  | @take item operand ls rs hwaits hoperand =>
      obtain ⟨hitem, hls⟩ := List.isChain_cons.mp hs.left
      obtain ⟨hrs, hchain⟩ := List.isChain_cons.mp hs.right
      refine ⟨hls, List.isChain_cons.mpr ⟨fun r hr => (hrs r hr).behind hoperand _, hchain⟩, ?_⟩
      rintro l hl _ ⟨⟩
      exact .of_not_isOperand (hnot hwaits (hitem l hl))
  | drop hwaits hnone =>
      exact (Sweep.IsSpaced.move.mp hs).drop fun l _ r _ hl => .of_not_isOperand (hnot hwaits hl)
  | pass _ => exact Sweep.IsSpaced.move.mp hs

/-- A combinator that waits is a negation or one of two. -/
theorem Item.waits_cases {item : Item} (h : ¬ item.isOperand) :
    item.Waits .not ∨ ∃ kind, kind.isBinaryCombinator ∧ item.Waits kind := by
  have hwaiting : item.isWaiting := item.isOperand_or_isWaiting.resolve_left h
  have hcombinator : item.kind.isCombinator := (Bool.and_eq_true_iff.mp hwaiting).1
  by_cases hnot : item.kind = .not
  · exact .inl ⟨hnot, hwaiting⟩
  · refine .inr ⟨item.kind, ?_, rfl, hwaiting⟩
    cases hkind : item.kind <;> simp_all [NodeKind.isCombinator, NodeKind.isBinaryCombinator]

/-- **A step of combinators of two keeps neighbours apart**, where no negation
waits. -/
theorem BinaryStep.isSpaced (h : BinaryStep kind s es t)
    (hnone : NoneWaits .not (s.left ++ s.right)) (hs : s.IsSpaced) : t.IsSpaced := by
  cases h with
  | @take left item right ls rs hwaits hleft hright =>
      obtain ⟨hls, hchain⟩ := List.isChain_cons.mp hs.left
      obtain ⟨hrs, hchain'⟩ := List.isChain_cons.mp (List.isChain_cons.mp hs.right).2
      have hoperand : ∀ l ∈ ls.head?, ¬ l.isOperand := fun l hl =>
        (hls l hl).not_isOperand fun _ _ hw => hw.not_isOperand hleft
      refine ⟨List.isChain_cons.mpr ⟨fun l hl => .of_not_isOperand (hoperand l hl), hchain⟩,
        hchain', ?_⟩
      rintro _ ⟨⟩ r hr
      exact (hrs r hr).behind hright _
  | @drop item ls rs hwaits hmissing =>
      refine hs.drop fun l hl r hr _ => ?_
      rcases hmissing with hmissing | hmissing
      · exact .of_not_isOperand (headOperand?_eq_none.mp hmissing l hl)
      · rcases Item.waits_cases (headOperand?_eq_none.mp hmissing r hr) with hnot | hbinary
        · have hmem : r ∈ ls ++ item :: rs := by simp [List.mem_of_mem_head? hr]
          exact absurd hnot (hnone r hmem)
        · exact fun _ => hbinary
  | pass _ => exact Sweep.IsSpaced.move.mpr hs

/-- What takes operands waits no more. -/
theorem Item.not_waits_withOperands (item operand : Item) (operands : List Item) :
    ¬ (item.withOperands (operand :: operands)).Waits kind :=
  fun hwaits => hwaits.not_isOperand (item.isOperand_withOperands operand operands)

/-- Behind the pass of the negations none waits. -/
theorem NotStep.noneWaits (h : NotStep s es t) (hs : NoneWaits .not s.right) :
    NoneWaits .not t.right := by
  cases h with
  | take hwaits hoperand =>
      exact List.forall_mem_cons.mpr
        ⟨Item.not_waits_withOperands _ _ _, (List.forall_mem_cons.mp hs).2⟩
  | drop hwaits hnone => exact hs
  | pass hpass => exact List.forall_mem_cons.mpr ⟨hpass, hs⟩

/-- Behind the pass of the combinators of a kind none of the kind waits. -/
theorem BinaryStep.noneWaits_left (h : BinaryStep kind s es t) (hs : NoneWaits kind s.left) :
    NoneWaits kind t.left := by
  cases h with
  | take hwaits hleft hright =>
      exact List.forall_mem_cons.mpr
        ⟨Item.not_waits_withOperands _ _ _, (List.forall_mem_cons.mp hs).2⟩
  | drop hwaits hmissing => exact hs
  | pass hpass => exact List.forall_mem_cons.mpr ⟨hpass, hs⟩

/-- No combinator begins to wait. -/
theorem BinaryStep.noneWaits {kind' : NodeKind} (h : BinaryStep kind s es t)
    (hs : NoneWaits kind' (s.left ++ s.right)) : NoneWaits kind' (t.left ++ t.right) := by
  cases h with
  | take hwaits hleft hright =>
      obtain ⟨hls, hrs⟩ := List.forall_mem_append.mp hs
      refine List.forall_mem_append.mpr ⟨List.forall_mem_cons.mpr ⟨?_, ?_⟩, ?_⟩
      · exact Item.not_waits_withOperands _ _ _
      · exact (List.forall_mem_cons.mp hls).2
      · exact (List.forall_mem_cons.mp (List.forall_mem_cons.mp hrs).2).2
  | drop hwaits hmissing =>
      obtain ⟨hls, hrs⟩ := List.forall_mem_append.mp hs
      exact List.forall_mem_append.mpr ⟨hls, (List.forall_mem_cons.mp hrs).2⟩
  | @pass item ls rs hpass =>
      have hperm : (ls ++ item :: rs).Perm (item :: ls ++ rs) := List.perm_middle
      exact fun i hi => hs i (hperm.mem_iff.mpr hi)

end Steps

/-- The pass of the negations leaves neighbours apart and no negation that
waits. -/
theorem combineNot_leaves {items : List Item} (h : items.IsChain Item.IsApart) :
    (combineNot items).value.IsChain Item.IsApart ∧ NoneWaits .not (combineNot items).value := by
  have hruns := combineNot_runs items []
  rw [List.append_nil] at hruns
  constructor
  · exact (hruns.keeps Sweep.IsSpaced (fun _ _ _ => NotStep.isSpaced) (.of_reverse_chain h)).right
  · exact hruns.keeps (fun s => NoneWaits .not s.right) (fun _ _ _ => NotStep.noneWaits)
      (List.forall_mem_nil _)

/-- The pass of the combinators of a kind leaves neighbours apart and none of
its kind that waits, and no other begins to wait. -/
theorem combineBinary_leaves (kind : NodeKind) {items : List Item}
    (h : items.IsChain Item.IsApart) (hnot : NoneWaits .not items) :
    (combineBinaryFrom kind [] items).value.IsChain Item.IsApart ∧
      NoneWaits kind (combineBinaryFrom kind [] items).value ∧
      ∀ kind', NoneWaits kind' items →
        NoneWaits kind' (combineBinaryFrom kind [] items).value := by
  obtain ⟨n, -, hruns⟩ := combineBinaryFrom_runs kind [] items
  have hspaced := hruns.keeps (fun s => s.IsSpaced ∧ NoneWaits .not (s.left ++ s.right))
    (fun _ _ _ hstep hs => ⟨hstep.isSpaced hs.2 hs.1, hstep.noneWaits hs.2⟩)
    ⟨.of_chain h, hnot⟩
  have hleft := hruns.keeps (fun s => NoneWaits kind s.left)
    (fun _ _ _ => BinaryStep.noneWaits_left) (List.forall_mem_nil _)
  refine ⟨List.isChain_reverse.mp hspaced.1.left, ?_, fun kind' hitems => ?_⟩
  · exact fun item hitem => hleft item (List.mem_reverse.mpr hitem)
  · have hkept := hruns.keeps (fun s => NoneWaits kind' (s.left ++ s.right))
      (fun _ _ _ => BinaryStep.noneWaits) hitems
    exact fun item hitem => hkept item (by simpa using hitem)

/-- Neighbours that are apart are no two operands. -/
theorem length_le_one {items : List Item} (h : items.IsChain Item.IsApart)
    (hoperands : ∀ item ∈ items, item.isOperand) : items.length ≤ 1 := by
  rcases items with _ | ⟨first, _ | ⟨second, rest⟩⟩
  · exact Nat.zero_le 1
  · exact le_refl 1
  · obtain ⟨kind, -, hwaits⟩ := (List.isChain_cons_cons.mp h).1 (hoperands first (by simp))
    exact absurd (hoperands second (by simp)) hwaits.not_isOperand

/-- **Of items whose neighbours are apart one operand is left at most.** -/
theorem combineItems_leaves {items : List Item} (h : items.IsChain Item.IsApart) :
    (combineItems items).value.length ≤ 1 ∧
      ∀ item ∈ (combineItems items).value, item.isOperand := by
  obtain ⟨hnots, hnot⟩ := combineNot_leaves h
  obtain ⟨hands, hand, hkeep⟩ := combineBinary_leaves .and hnots hnot
  obtain ⟨hors, hor, hkeep'⟩ := combineBinary_leaves .or hands (hkeep .not hnot)
  have hoperands : ∀ item ∈ (combineItems items).value, item.isOperand := by
    intro item hitem
    by_contra hoperand
    rcases Item.waits_cases hoperand with hwaits | ⟨kind, hkind, hwaits⟩
    · exact hkeep' .not (hkeep .not hnot) item hitem hwaits
    · rcases setOperation?_of_isBinaryCombinator hkind with ⟨rfl, -⟩ | ⟨rfl, -⟩
      · exact hkeep' .and hand item hitem hwaits
      · exact hor item hitem hwaits
  exact ⟨length_le_one hors hoperands, hoperands⟩

/-- Where one item is left at most, none is left beside it. -/
theorem extraNotes_of_length {items : List Item} (h : items.length ≤ 1) :
    extraNotes items = [] := by
  rcases items with _ | ⟨first, _ | ⟨second, rest⟩⟩
  · rfl
  · rfl
  · simp at h

/-- **If nothing is left of items, then what was wrong with them has been
noted.** -/
theorem faulty_of_combineItems_nil {items : List Item} (hitems : items ≠ [])
    (hnil : (combineItems items).value = []) :
    ∃ e ∈ (combineItems items).notes, e.kind = .syntactic := by
  have hnotes : (combine items).notes = (combineItems items).notes := by
    rw [notes_combine, hnil]
    exact List.append_nil _
  rw [← hnotes]
  refine (List.exists_mem_of_ne_nil _ fun hclean => ?_).imp fun e he =>
    ⟨he, combine_syntactic items e he⟩
  rcases combines_of_combine hclean with rfl | ⟨item, hcombines⟩
  · exact hitems rfl
  · have hvalue := value_combine items
    rw [hcombines.combine, hnil] at hvalue
    cases hvalue

end Graph

open FilterQuery.Graph Grammar

/-- Items are apart once an `and` has been put wherever one is left out. -/
theorem Grammar.Joins.isChain {text : String} {items joined : List Item}
    (h : Joins text items joined) :
    joined.head? = items.head? ∧ joined.IsChain Item.IsApart := by
  induction h with
  | nil => exact ⟨rfl, .nil⟩
  | single x => exact ⟨rfl, .singleton x⟩
  | @adjacent x y gap xs joined hadjacent hgap rest ih =>
      have hwaits : gap.Waits .and := waits_of_said hgap rfl
      refine ⟨rfl, List.isChain_cons_cons.mpr ⟨hwaits.isApart rfl, ?_⟩⟩
      refine List.isChain_cons.mpr ⟨?_, ih.2⟩
      exact fun right _ => .of_not_isOperand hwaits.not_isOperand
  | @apart x y xs joined hapart rest ih =>
      refine ⟨rfl, List.isChain_cons.mpr ⟨fun right hright => ?_, ih.2⟩⟩
      rw [ih.1] at hright
      obtain rfl := Option.some.inj hright
      exact .of_not_isAdjacent hapart

namespace Draft

variable {known : Knowledge} {text : String}

/-- Putting in the `and`s that are left out reports nothing. -/
theorem joinAdjacent_run (known : Knowledge) (d : Draft) (items : List Item) :
    Joins text items ((joinAdjacent text items).run d).1 ∧
      ((joinAdjacent text items).run d).2.errors = d.errors := by
  have hmakes : Makes known (joinAdjacent text items) _ := joinAdjacent_makes items
  obtain ⟨ps, es, hdrafted, hjoins, -, rfl⟩ := hmakes d
  exact ⟨hjoins, hdrafted.errors.trans (List.append_nil _)⟩

/-- No cause is an expression beside another. -/
abbrev NoneExtra (es : List QueryError) : Prop := ∀ e ∈ es, e.cause ≠ .unexpectedExpression

/-- Combining notes no second expression. -/
theorem combineItems_noneExtra (items : List Item) : NoneExtra (combineItems items).notes := by
  have hmissing : ∀ (item : Item) (left right : Option Item),
      NoneExtra (missingOperands item left right) := by
    intro item left right
    cases left <;> cases right <;> simp [missingOperands, NoneExtra, QueryError.about]
  have hbinary : ∀ (kind : NodeKind) (items : List Item),
      NoneExtra (combineBinaryFrom kind [] items).notes := by
    intro kind items
    obtain ⟨n, -, hruns⟩ := combineBinaryFrom_runs kind [] items
    refine hruns.notes _ fun s es t hstep => ?_
    cases hstep with
    | take _ _ _ => exact List.forall_mem_nil _
    | drop _ _ => exact hmissing _ _ _
    | pass _ => exact List.forall_mem_nil _
  have hnot : NoneExtra (combineNot items).notes := by
    refine (combineNot_runs items []).notes _ fun s es t hstep => ?_
    cases hstep with
    | take _ _ => exact List.forall_mem_nil _
    | drop _ _ => exact List.forall_mem_singleton.mpr (by simp [QueryError.about])
    | pass _ => exact List.forall_mem_nil _
  rw [combineItems_eq]
  exact List.forall_mem_append.mpr
    ⟨hnot, List.forall_mem_append.mpr ⟨hbinary .and _, hbinary .or _⟩⟩

/-- Composing reports no second expression. -/
theorem compose_noneExtra (items : List Item) :
    Makes known (compose text items) fun _ _ es => NoneExtra es := by
  refine (compose_makes items).mono ?_
  rintro root ps es ⟨joined, hjoins, -, -, rfl⟩
  rw [notes_combine, extraNotes_of_length (combineItems_leaves hjoins.isChain.2).1, List.append_nil]
  exact combineItems_noneExtra joined

/-- The errors about a lexeme that says something. -/
theorem noneExtra_of_reads
    (hknown : known.Blames (· ≠ .unexpectedExpression)) {l : Lexeme} {t : Tree Content}
    (h : Reads text l t) : Makes known (addLexeme known text l) fun _ _ es => NoneExtra es := by
  refine (addLexeme_makes l).mono fun item? ps es hspelled => ?_
  obtain ⟨item, -, -, -, rfl⟩ := hspelled.read t h
  exact hknown.faults l

mutual

/-- A lexeme is drafted without a report of a second expression. -/
theorem addLexeme_noneExtra (hknown : known.Blames (· ≠ .unexpectedExpression)) : (l : Lexeme) →
    Makes known (addLexeme known text l) fun _ _ es => NoneExtra es
  | .group inner token => by
      rw [addLexeme]
      refine (addLexemes_noneExtra hknown inner).bind fun items ps es hinner => ?_
      refine (compose_noneExtra items).bind fun root qs fs hbody => ?_
      have hboth : NoneExtra (es ++ fs) := List.forall_mem_append.mpr ⟨hinner, hbody⟩
      cases root with
      | none => exact .pure (by rwa [List.append_nil])
      | some child =>
          refine (add_makesItem rfl).bind ?_
          rintro item rs gs ⟨-, -, rfl⟩
          exact .pure (by rwa [List.append_nil, List.append_nil])
  | .and token => noneExtra_of_reads hknown (.and token)
  | .or token => noneExtra_of_reads hknown (.or token)
  | .not token => noneExtra_of_reads hknown (.not token)
  | .nested block => noneExtra_of_reads hknown (.operand (.nested block))
  | .filter f none token => noneExtra_of_reads hknown (.operand (.filter f token))
  | .filter f (some block) token =>
      noneExtra_of_reads hknown (.operand (.nestedFilter f block token))
  | .toggle name token => noneExtra_of_reads hknown (.operand (.toggle name token))
  | .comment content token => noneExtra_of_reads hknown (.operand (.comment content token))
  | .word s token => noneExtra_of_reads hknown (.operand (.word s token))

/-- Lexemes are drafted without a report of a second expression. -/
theorem addLexemes_noneExtra (hknown : known.Blames (· ≠ .unexpectedExpression)) :
    (ls : List Lexeme) → Makes known (addLexemes known text ls) fun _ _ es => NoneExtra es
  | [] => by
      rw [addLexemes]
      exact .pure (List.forall_mem_nil _)
  | l :: ls => by
      rw [addLexemes]
      refine (addLexeme_noneExtra hknown l).bind fun item? ps es hl => ?_
      refine (addLexemes_noneExtra hknown ls).bind fun items qs fs hls => ?_
      refine .pure ?_
      rw [List.append_nil]
      exact List.forall_mem_append.mpr ⟨hl, hls⟩

end

/-- **No draft reports an expression beside another.** -/
theorem ofLexemes_noneExtra (hknown : known.Blames (· ≠ .unexpectedExpression))
    (ls : List Lexeme) : NoneExtra (ofLexemes known text ls).errors :=
  ofLexemes_errors <| (addLexemes_noneExtra hknown ls).bind fun items _ _ hls =>
    (compose_noneExtra items).mono fun _ _ _ hbody => List.forall_mem_append.mpr ⟨hls, hbody⟩

end Draft

/-- What the three passes do with items: each comes to its end, one operand is
left at most, and if nothing is left of any, then a fault of syntax has been
noted. -/
structure Graph.Converges (items : List Item) : Prop where
  negations : NegationsEnd items
  conjunctions : CombinatorsEnd .and (combineNot items).value
  disjunctions : CombinatorsEnd .or (combineBinaryFrom .and [] (combineNot items).value).value
  atMostOne : (combineItems items).value.length ≤ 1
  operands : ∀ item ∈ (combineItems items).value, item.isOperand
  faulty : items ≠ [] → (combineItems items).value = [] →
    ∃ e ∈ (combineItems items).notes, e.kind = .syntactic

/-- Joined items converge. -/
theorem Grammar.Joins.converges {text : String} {items joined : List Item}
    (h : Joins text items joined) : Converges joined where
  negations := negationsEnd _
  conjunctions := combinatorsEnd _ _
  disjunctions := combinatorsEnd _ _
  atMostOne := (combineItems_leaves h.isChain.2).1
  operands := (combineItems_leaves h.isChain.2).2
  faulty := faulty_of_combineItems_nil

/-- **Combining always converges.**  Whatever the lexemes are, and whatever has
been drafted before them, each pass over their nodes comes to its end and one
operand is left at most; it is the result, and just what the passes have noted
is reported.  If there is no result for some nodes, then there is a fault of
syntax among it.  So an expression beside another is never reported. -/
theorem combining_converges {α : Type} (engine : Engine α) (text : String) (ls : List Lexeme)
    (d : Draft) :
    let nodes := (Draft.addLexemes engine.knowledge text ls).run d
    let joined := ((Draft.joinAdjacent text nodes.1).run nodes.2).1
    let composed := (Draft.compose text nodes.1).run nodes.2
    let draft := Draft.ofLexemes engine.knowledge text ls
    Converges joined ∧
      (composed.1 = (combineItems joined).value.head? ∧
        composed.2.errors = nodes.2.errors ++ (combineItems joined).notes) ∧
      (nodes.1 ≠ [] → composed.1 = none →
        ∃ e ∈ (combineItems joined).notes, e.kind = .syntactic) ∧
      ∀ e ∈ draft.errors ++ draft.evaluation.notes, e.cause ≠ .unexpectedExpression := by
  intro nodes joined composed draft
  have hrun : Joins text nodes.1 joined ∧ _ :=
    Draft.joinAdjacent_run engine.knowledge nodes.2 nodes.1
  obtain ⟨hjoins, herrors⟩ := hrun
  have hconverges : Converges joined := hjoins.converges
  have hvalue : composed.1 = (combineItems joined).value.head? := value_combine joined
  have hnotes : composed.2.errors = nodes.2.errors ++ (combineItems joined).notes := by
    have hreported : composed.2.errors =
        ((Draft.joinAdjacent text nodes.1).run nodes.2).2.errors ++ (combine joined).notes := rfl
    rw [hreported, herrors, notes_combine, extraNotes_of_length hconverges.atMostOne,
      List.append_nil]
  refine ⟨hconverges, ⟨hvalue, hnotes⟩, fun hnodes hnone => ?_, ?_⟩
  · refine hconverges.faulty (fun hnil => hnodes ?_) ?_
    · have hhead : joined.head? = nodes.1.head? := hjoins.isChain.1
      rw [hnil] at hhead
      exact List.head?_eq_none_iff.mp hhead.symm
    · rw [hvalue] at hnone
      exact List.head?_eq_none_iff.mp hnone
  · have hknown : engine.knowledge.Blames (· ≠ .unexpectedExpression) := by
      refine ⟨fun f nested cause hcause => ?_, fun _ => by simp, fun _ => by simp⟩
      rcases Engine.cause_of_judge hcause with rfl | rfl | rfl <;> simp
    refine List.forall_mem_append.mpr ⟨Draft.ofLexemes_noneExtra hknown ls, fun e he hcause => ?_⟩
    have hsemantic := (Query.evaluation_isEvaluable engine.knowledge text ls).2 e he
    rw [QueryError.kind, hcause] at hsemantic
    cases hsemantic

end FilterQuery
