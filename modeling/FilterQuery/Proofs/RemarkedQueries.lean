import FilterQuery.Proofs.Remarks
import FilterQuery.Proofs.Residues

/-!
# Queries with remarks

Nothing is left of a remark when the graph to evaluate is derived, and a
combinator over a remark and another operand gives way to that operand.  So from
a derivation of what remains of lexemes one gets a derivation of the lexemes
themselves: each remark, with the `not`s in front of it, is a further operand of
the conjunction that it stands in, joined to it by an `and` that was left out or
by the one in front of it.  What is left of the two trees is the same.

A `not` in front of a remark thus says nothing about what stands behind the
remark, although it would if the remark were erased by itself.
-/

namespace FilterQuery

open FilterQuery.Graph Grammar

section Lift

variable (known : Knowledge) (text : String)

/-- Operands side by side, each with the `not`s in front of it, of which nothing
is left. -/
inductive Unread : List Lexeme → Prop where
  | nothing : Unread []
  | beside {ls rest : List Lexeme} {t : Tree Content} (first : Negation text ls t)
      (unread : residue known t = none) (behind : Unread rest) : Unread (ls ++ rest)

/-- A negation amid remarks. -/
inductive Amid (left : Option (Tree NodeKind)) : List Lexeme → Prop where
  | intro {before ls behind : List Lexeme} {t : Tree Content} (hbefore : remainingAll before = [])
      (h : Negation text ls t) (hleft : residue known t = left)
      (hbehind : remainingAll behind = []) : Amid left (before ++ (ls ++ behind))

variable {known text} {ls rest : List Lexeme} {t : Tree Content}

/-- Remarks behind a conjunction are part of it, and leave of it what was
left. -/
theorem Grammar.Conjunction.beside_unread (h : Conjunction text ls t)
    (hrest : Unread known text rest) :
    ∃ u, Conjunction text (ls ++ rest) u ∧ residue known u = residue known t := by
  induction hrest generalizing ls t with
  | nothing => exact ⟨t, by rwa [List.append_nil], rfl⟩
  | @beside ls' rest t' first unread behind ih =>
      obtain ⟨u, hu, hresidue⟩ := ih (.omitted h first)
      refine ⟨u, by rwa [← List.append_assoc], hresidue.trans ?_⟩
      rw [residue_binary rfl, unread]
      cases residue known t <;> rfl

/-- Operands of which nothing is left are a conjunction of which nothing is
left. -/
theorem Unread.conjunction (h : Unread known text ls) (hne : ls ≠ []) :
    ∃ u, Conjunction text ls u ∧ residue known u = none := by
  cases h with
  | nothing => exact absurd rfl hne
  | beside first unread behind =>
      obtain ⟨u, hu, hresidue⟩ := Conjunction.beside_unread (.single first) behind
      exact ⟨u, hu, hresidue.trans unread⟩

mutual

/-- **A lexeme of which nothing remains is an operand of which nothing is
left.** -/
theorem unread_operand : ∀ {l : Lexeme}, IsFilled l → remaining? l = none →
    ∃ t, Operand text l t ∧ residue known t = none
  | .toggle name token, _, _ => ⟨_, .toggle name token, residue_skipped rfl⟩
  | .comment content token, _, _ => ⟨_, .comment content token, residue_skipped rfl⟩
  | .group inner token, hfilled, h => by
      have hnothing : remainingAll inner = [] := Lexeme.groupOf?_eq_none.mp h
      obtain ⟨u, hu, hresidue⟩ :=
        (unread_of_remainingAll hfilled.2 hnothing).conjunction hfilled.1
      exact ⟨_, .group token (.single hu), (residue_group token).trans hresidue⟩
  | .and _, _, h | .or _, _, h | .not _, _, h | .nested _, _, h | .filter .., _, h
  | .word .., _, h => by cases h

/-- **Lexemes of which nothing remains are operands of which nothing is
left.** -/
theorem unread_of_remainingAll : ∀ {ls : List Lexeme}, AllFilled ls → remainingAll ls = [] →
    Unread known text ls
  | [], _, _ => .nothing
  | l :: ls, hfilled, h => by
      rcases stays_or_goes l ls with ⟨l', hl⟩ | ⟨-, hgoes, hnot, hremark⟩
      · rw [hl.remainingAll_cons] at h
        cases h
      · have hrest : Unread known text ls := unread_of_remainingAll hfilled.2 (hgoes ▸ h)
        cases hkind : l.isNot with
        | false =>
            obtain ⟨t, ht, hresidue⟩ := unread_operand hfilled.1 (hremark hkind)
            exact .beside (.operand ht) hresidue hrest
        | true =>
            obtain ⟨token, rfl⟩ := Lexeme.exists_of_isNot hkind
            have hnegates := hnot hkind
            cases hrest with
            | nothing => cases hnegates
            | beside first unread behind =>
                exact .beside (.not token first) (by rw [residue_not, unread]; rfl) behind

end

/-- A conjunction goes on with a negation amid remarks. -/
theorem Grammar.Conjunction.beside_amid {before negated behind : List Lexeme} {u : Tree Content}
    (h : Conjunction text ls t) (hbefore : Unread known text before)
    (hnegated : Negation text negated u) (hbehind : Unread known text behind) :
    ∃ v, Conjunction text (ls ++ (before ++ (negated ++ behind))) v ∧
      residue known v =
        Option.merge (fun k k' => .node .and [k, k']) (residue known t) (residue known u) := by
  obtain ⟨w, hw, hfirst⟩ := h.beside_unread hbefore
  obtain ⟨v, hv, hlast⟩ := Conjunction.beside_unread (.omitted hw hnegated) hbehind
  refine ⟨v, by simpa only [List.append_assoc] using hv, hlast.trans ?_⟩
  rw [residue_binary rfl, hfirst]

section Amid

variable {left : Option (Tree NodeKind)}

/-- A negation amid remarks is a conjunction with them. -/
theorem Amid.conjunction (h : Amid known text left ls) (hfilled : AllFilled ls) :
    ∃ u, Conjunction text ls u ∧ residue known u = left := by
  obtain @⟨before, negated, behind, u, hbefore, hnegated, rfl, hbehind⟩ := h
  obtain ⟨hfirst, hrest⟩ := allFilled_append.mp hfilled
  have hbefore' : Unread known text before := unread_of_remainingAll hfirst hbefore
  have hlast : Unread known text behind :=
    unread_of_remainingAll (allFilled_append.mp hrest).2 hbehind
  cases hbefore' with
  | nothing =>
      rw [List.nil_append]
      exact Conjunction.beside_unread (.single hnegated) hlast
  | beside first unread hmore =>
      obtain ⟨v, hv, hresidue⟩ := Conjunction.beside_amid (.single first) hmore hnegated hlast
      refine ⟨v, by simpa only [List.append_assoc] using hv, hresidue.trans ?_⟩
      rw [unread, Option.merge_none_left]

/-- A conjunction goes on with a negation amid remarks, without an `and`. -/
theorem Amid.omitted (h : Amid known text left rest) (hfilled : AllFilled rest)
    (hleft : Conjunction text ls t) :
    ∃ v, Conjunction text (ls ++ rest) v ∧
      residue known v = Option.merge (fun k k' => .node .and [k, k']) (residue known t) left := by
  obtain ⟨hbefore, hnegated, rfl, hbehind⟩ := h
  obtain ⟨hfirst, hrest⟩ := allFilled_append.mp hfilled
  exact hleft.beside_amid (unread_of_remainingAll hfirst hbefore) hnegated
    (unread_of_remainingAll (allFilled_append.mp hrest).2 hbehind)

/-- A conjunction goes on with an `and` and a negation amid remarks.  If a
remark stands behind the `and`, it is its operand, and the negation follows
without one. -/
theorem Amid.written (h : Amid known text left rest) (hfilled : AllFilled rest) (token : Token)
    (hleft : Conjunction text ls t) :
    ∃ v, Conjunction text (ls ++ .and token :: rest) v ∧
      residue known v = Option.merge (fun k k' => .node .and [k, k']) (residue known t) left := by
  obtain @⟨before, negated, behind, u, hbefore, hnegated, rfl, hbehind⟩ := h
  obtain ⟨hfirst, hrest⟩ := allFilled_append.mp hfilled
  have hbefore' : Unread known text before := unread_of_remainingAll hfirst hbefore
  have hlast : Unread known text behind :=
    unread_of_remainingAll (allFilled_append.mp hrest).2 hbehind
  cases hbefore' with
  | nothing =>
      obtain ⟨v, hv, hresidue⟩ := Conjunction.beside_unread (.written token hleft hnegated) hlast
      exact ⟨v, by simpa using hv, hresidue.trans (residue_binary rfl token)⟩
  | beside first unread hmore =>
      obtain ⟨v, hv, hresidue⟩ :=
        Conjunction.beside_amid (.written token hleft first) hmore hnegated hlast
      refine ⟨v, by simpa using hv, hresidue.trans ?_⟩
      rw [residue_binary rfl, unread, Option.merge_none_right]

end Amid

/-- An operand other than a group remains as it is. -/
theorem Grammar.Operand.with_remarks_of_ne_group {l' : Lexeme} (h : Operand text l' t)
    (hgroup : ∀ inner token, l' ≠ .group inner token) {l : Lexeme} (hl : remaining? l = some l') :
    ∃ u, Operand text l u ∧ residue known u = residue known t := by
  rcases remaining?_cases hl with rfl | ⟨inner, token, -, rfl⟩
  · exact ⟨t, h, rfl⟩
  · exact absurd rfl (hgroup _ _)

mutual

/-- **Lexemes are derivable if what remains of them is**, and of their tree the
same is left. -/
theorem Grammar.Disjunction.with_remarks : ∀ {ls t}, Disjunction text ls t →
    ∀ {ls'}, AllFilled ls' → remainingAll ls' = ls →
      ∃ u, Disjunction text ls' u ∧ residue known u = residue known t
  | _, _, .single h, _, hfilled, hls => by
      obtain ⟨u, hu, hresidue⟩ := h.with_remarks hfilled hls
      exact ⟨u, .single hu, hresidue⟩
  | _, _, .or token left right, _, hfilled, hls => by
      obtain ⟨before, l, behind, rfl, hbefore, hstays, hbehind⟩ := exists_stays hls
      obtain rfl := hstays.eq (by simp)
      obtain ⟨hfirst, -, hlast⟩ := allFilled_append.mp hfilled
      obtain ⟨u, hu, hleft⟩ := left.with_remarks hfirst hbefore
      obtain ⟨v, hv, hright⟩ := right.with_remarks hlast hbehind
      refine ⟨_, .or token hu hv, ?_⟩
      rw [residue_binary rfl, residue_binary rfl, hleft, hright]

/-- A conjunction leaves the same with remarks in it. -/
theorem Grammar.Conjunction.with_remarks : ∀ {ls t}, Conjunction text ls t →
    ∀ {ls'}, AllFilled ls' → remainingAll ls' = ls →
      ∃ u, Conjunction text ls' u ∧ residue known u = residue known t
  | _, _, .single h, _, hfilled, hls => (h.amid_remarks hfilled hls).conjunction hfilled
  | _, _, .written token left right, _, hfilled, hls => by
      obtain ⟨before, l, behind, rfl, hbefore, hstays, hbehind⟩ := exists_stays hls
      obtain rfl := hstays.eq (by simp)
      obtain ⟨hfirst, -, hlast⟩ := allFilled_append.mp hfilled
      obtain ⟨u, hu, hleft⟩ := left.with_remarks hfirst hbefore
      obtain ⟨v, hv, hresidue⟩ := (right.amid_remarks hlast hbehind).written hlast token hu
      refine ⟨v, hv, hresidue.trans ?_⟩
      rw [residue_binary rfl, hleft]
  | _, _, .omitted left right, _, hfilled, hls => by
      obtain ⟨r, rs, hrs⟩ := List.exists_cons_of_ne_nil right.ne_nil
      rw [hrs] at hls
      obtain ⟨before, l, behind, rfl, hbefore, hstays, hbehind⟩ := exists_stays hls
      obtain ⟨hfirst, hlast⟩ := allFilled_append.mp hfilled
      obtain ⟨u, hu, hleft⟩ := left.with_remarks hfirst hbefore
      have hrest := hstays.remainingAll_cons
      rw [hbehind, ← hrs] at hrest
      obtain ⟨v, hv, hresidue⟩ := (right.amid_remarks hlast hrest).omitted hlast hu
      refine ⟨v, hv, hresidue.trans ?_⟩
      rw [residue_binary rfl, hleft]

/-- A negation leaves the same with remarks around it and behind its `not`s. -/
theorem Grammar.Negation.amid_remarks : ∀ {ls t}, Negation text ls t →
    ∀ {ls'}, AllFilled ls' → remainingAll ls' = ls → Amid known text (residue known t) ls'
  | _, _, .operand h, _, hfilled, hls => by
      obtain ⟨before, l, behind, rfl, hbefore, hstays, hbehind⟩ :=
        exists_stays (hls.trans (List.nil_append _).symm)
      obtain ⟨-, hl, -⟩ := allFilled_append.mp hfilled
      obtain ⟨u, hu, hresidue⟩ := h.with_remarks hl hstays.remaining
      exact .intro hbefore (.operand hu) hresidue hbehind
  | _, _, .not token h, _, hfilled, hls => by
      obtain ⟨before, l, behind, rfl, hbefore, hstays, hbehind⟩ :=
        exists_stays (hls.trans (List.nil_append _).symm)
      obtain rfl := hstays.eq (by simp)
      obtain ⟨-, -, hlast⟩ := allFilled_append.mp hfilled
      obtain @⟨between, negated, rest, u, hbetween, hnegated, hresidue, hrest⟩ :=
        h.amid_remarks hlast hbehind
      -- Nothing stands between the `not` and what it negates, or it would not stay.
      have hnothing : between = [] := by
        by_contra hne
        have hnegates := hstays.negates
        rw [negatesRemark_of_remainingAll_nil hbetween hne] at hnegates
        cases hnegates
      subst hnothing
      refine .intro hbefore (.not token hnegated) ?_ hrest
      rw [residue_not, residue_not, hresidue]

/-- An operand leaves the same with remarks in it. -/
theorem Grammar.Operand.with_remarks : ∀ {l t}, Operand text l t →
    ∀ {l'}, IsFilled l' → remaining? l' = some l →
      ∃ u, Operand text l' u ∧ residue known u = residue known t
  | _, _, .group token body, l', hfilled, hl => by
      rcases remaining?_cases hl with rfl | ⟨inner, token', rfl, hgroup⟩
      · exact ⟨_, .group token body, rfl⟩
      · obtain ⟨hinner, -⟩ := Lexeme.group.inj hgroup
        obtain ⟨u, hu, hresidue⟩ := body.with_remarks hfilled.2 hinner.symm
        refine ⟨_, .group token' hu, ?_⟩
        rw [residue_group, residue_group, hresidue]
  | _, _, .word s token, _, _, hl => (Operand.word s token).with_remarks_of_ne_group (by simp) hl
  | _, _, .filter f token, _, _, hl =>
      (Operand.filter f token).with_remarks_of_ne_group (by simp) hl
  | _, _, .nestedFilter f block token, _, _, hl =>
      (Operand.nestedFilter f block token).with_remarks_of_ne_group (by simp) hl
  | _, _, .nested block, _, _, hl => (Operand.nested block).with_remarks_of_ne_group (by simp) hl
  | _, _, .toggle name token, _, _, hl =>
      (Operand.toggle name token).with_remarks_of_ne_group (by simp) hl
  | _, _, .comment content token, _, _, hl =>
      (Operand.comment content token).with_remarks_of_ne_group (by simp) hl

end

end Lift

namespace Draft

variable {known : Knowledge} {text : String} {ls : List Lexeme}

/-- Nothing is wrong with a query without lexemes, and nothing is evaluated for
it. -/
theorem evaluation_of_nil (known : Knowledge) (text : String) :
    (ofLexemes known text []).errors = [] ∧ (ofLexemes known text []).evaluation = pure {} := by
  obtain ⟨hroot, herrors⟩ := @ofLexemes_nil known text
  refine ⟨herrors, ?_⟩
  rw [Draft.evaluation, herrors, if_neg (by simp)]
  exact evaluation_of_prune_none (by rw [tree?, hroot]; rfl)

/-- No error of syntax is met if and only if the lexemes are derivable, or there
are none. -/
theorem clean_iff (hsemantic : known.IsSemantic) (hfilled : AllFilled ls) :
    Clean ((ofLexemes known text ls).errors ++ (ofLexemes known text ls).evaluation.notes) ↔
      ls = [] ∨ ∃ t, Disjunction text ls t := by
  constructor
  · intro hclean
    exact derivable_of_clean hfilled (Clean.append.mp hclean).1
  · rintro (rfl | ⟨t, ht⟩)
    · obtain ⟨herrors, hevaluation⟩ := evaluation_of_nil known text
      rw [herrors, hevaluation]
      simp [Clean]
    · exact (evaluation_of_derived hsemantic ht).1

/-- **Lexemes are evaluated as what remains of them is.** -/
theorem with_remarks (hsemantic : known.IsSemantic) (hfilled : AllFilled ls)
    (h : remainingAll ls = [] ∨ ∃ t, Disjunction text (remainingAll ls) t) :
    (ls = [] ∨ ∃ u, Disjunction text ls u) ∧
      (ofLexemes known text ls).evaluation.value.kinds? =
        (ofLexemes known text (remainingAll ls)).evaluation.value.kinds? := by
  rcases h with hnothing | ⟨t, ht⟩
  · rw [hnothing]
    by_cases hne : ls = []
    · subst hne
      exact ⟨.inl rfl, rfl⟩
    · have hunread : Unread known text ls := unread_of_remainingAll hfilled hnothing
      obtain ⟨u, hu, hnone⟩ := hunread.conjunction hne
      refine ⟨.inr ⟨u, .single hu⟩, ?_⟩
      obtain ⟨-, hevaluation⟩ := evaluation_of_derived hsemantic (.single hu)
      rcases hevaluation with ⟨-, hempty⟩ | ⟨v, hsome, -⟩
      · rw [hempty, (evaluation_of_nil known text).2]
        rfl
      · cases hnone.symm.trans hsome
  · obtain ⟨u, hu, hresidue⟩ : ∃ u, Disjunction text ls u ∧ residue known u = residue known t :=
      ht.with_remarks hfilled rfl
    exact ⟨.inr ⟨u, hu⟩, kinds?_eq_of_residue_eq hsemantic hu ht hresidue⟩

/-- **A query is evaluated as if no remark had been written, nor any `not`
directly in front of one.**  If the lexemes without their remarks meet no error
of syntax, then neither does what remains of them when each remark takes along
the `not`s in front of it; and if that meets none, then the lexemes as they are
meet none either, and the graphs to evaluate have the same nodes and are written
in the same way.  Where no `not` stands in front of a remark, what remains is
just the lexemes without their remarks. -/
theorem remarks_take_along_negations {α : Type} (engine : Engine α) (text : String)
    (ls : List Lexeme) :
    let full := Draft.ofLexemes engine.knowledge text ls
    let bare := Draft.ofLexemes engine.knowledge text (erasedAll ls)
    let left := Draft.ofLexemes engine.knowledge text (remainingAll (filledAll ls))
    (Clean (bare.errors ++ bare.evaluation.notes) →
        Clean (left.errors ++ left.evaluation.notes)) ∧
      (Clean (left.errors ++ left.evaluation.notes) →
        Clean (full.errors ++ full.evaluation.notes) ∧
          full.evaluation.value.kinds? = left.evaluation.value.kinds? ∧
          full.evaluation.value.render = left.evaluation.value.render) ∧
      (sparesAllRemarks (filledAll ls) = true → remainingAll (filledAll ls) = erasedAll ls) := by
  intro full bare left
  have hsemantic := engine.knowledge_isSemantic
  have hleft : Clean (left.errors ++ left.evaluation.notes) ↔ _ :=
    clean_iff hsemantic (allFilled_remainingAll (filledAll ls))
  refine ⟨fun hclean => ?_, fun hclean => ?_, fun hspares => ?_⟩
  · refine hleft.mpr ?_
    have herased : erasedAll (filledAll ls) = erasedAll ls := erasedAll_filledAll ls
    rcases (clean_iff hsemantic (allFilled_erasedAll ls)).mp hclean with hnothing | ⟨t, ht⟩
    · exact .inl (remainingAll_eq_nil_of_erasedAll (herased.trans hnothing))
    · exact .inr (ht.remaining herased)
  · obtain ⟨hderived, hkinds⟩ :=
      with_remarks hsemantic (allFilled_filledAll ls) (hleft.mp hclean)
    have hfull : full = Draft.ofLexemes engine.knowledge text (filledAll ls) :=
      ofLexemes_filled engine.knowledge text ls
    rw [hfull]
    have hclean' := (clean_iff hsemantic (allFilled_filledAll ls)).mpr hderived
    exact ⟨hclean', hkinds, render_eq_of_kinds? hkinds⟩
  · rw [remainingAll_eq_erasedAll hspares, erasedAll_filledAll]

/-- In `a or -b // c` no remark is negated; in `a or -(+t) -b // c` a toggle is,
and goes with the `not` in front of it. -/
theorem remarks_beside_a_negation :
    let a : Lexeme := .word { text := "a" } ⟨"a", 0, 1⟩
    let b : Lexeme := .word { text := "b" } ⟨"b", 12, 1⟩
    let or : Lexeme := .or ⟨"or", 2, 2⟩
    let not : Lexeme := .not ⟨"-", 11, 1⟩
    let comment : Lexeme := .comment "c" ⟨"// c", 14, 4⟩
    let negated : List Lexeme :=
      [.not ⟨"-", 5, 1⟩, .group [.toggle "t" ⟨"+t", 7, 2⟩] ⟨"(+t)", 6, 4⟩]
    let text := "a or -(+t) -b // c"
    let full := ofLexemes ({} : Engine Unit).knowledge text
      (a :: or :: negated ++ [not, b, comment])
    let bare := ofLexemes ({} : Engine Unit).knowledge text
      (erasedAll (a :: or :: negated ++ [not, b, comment]))
    Clean (bare.errors ++ bare.evaluation.notes) ∧ Clean (full.errors ++ full.evaluation.notes) ∧
      full.evaluation.value.render = "Where(Or(Search(\"a\"), Not(Search(\"b\"))))" ∧
      sparesAllRemarks (filledAll [a, or, not, b, comment]) = true ∧
      remainingAll (filledAll [a, or, not, b, comment]) = erasedAll [a, or, not, b, comment] := by
  intro a b or not comment negated text full bare
  have hbare : Clean (bare.errors ++ bare.evaluation.notes) := by unfold Clean; decide +kernel
  have hspares : sparesAllRemarks (filledAll [a, or, not, b, comment]) = true := rfl
  obtain ⟨hleft, hfull, -⟩ := remarks_take_along_negations ({} : Engine Unit) text
    (a :: or :: negated ++ [not, b, comment])
  obtain ⟨hclean, -, hrender⟩ := hfull (hleft hbare)
  obtain ⟨-, -, hremaining⟩ :=
    remarks_take_along_negations ({} : Engine Unit) text [a, or, not, b, comment]
  exact ⟨hbare, hclean, hrender.trans (by decide +kernel), hspares, hremaining hspares⟩

/-- **Erasing a remark behind a `not` changes what is negated.**  The `not` of
`-+t a` takes the toggle; in `- a` it takes the word. -/
theorem negated_remark_is_no_negation :
    let not : Lexeme := .not ⟨"-", 0, 1⟩
    let toggle : Lexeme := .toggle "t" ⟨"+t", 1, 2⟩
    let a : Lexeme := .word { text := "a" } ⟨"a", 4, 1⟩
    let full := ofLexemes ({} : Engine Unit).knowledge "-+t a" [not, toggle, a]
    let bare := ofLexemes ({} : Engine Unit).knowledge "-+t a" (erasedAll [not, toggle, a])
    erasedAll [not, toggle, a] = [not, a] ∧ Clean (bare.errors ++ bare.evaluation.notes) ∧
      full.evaluation.value.render = "Where(Search(\"a\"))" ∧
      bare.evaluation.value.render = "Where(Not(Search(\"a\")))" ∧
      full.evaluation.value.render ≠ bare.evaluation.value.render := by
  intro not toggle a full bare
  exact ⟨rfl, by unfold Clean; decide +kernel, by decide +kernel, by decide +kernel,
    by decide +kernel⟩

end Draft

end FilterQuery
