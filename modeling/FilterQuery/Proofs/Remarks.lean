import FilterQuery.Proofs.EmptyGroups

/-!
# Remarks

Comments and toggles are remarks, which say nothing about what is evaluated.
Erasing them leaves groups in which nothing else stood with nothing in them, and
these go as well.

But a remark is read as an operand, so that a `not` directly in front of it is
not one in front of what stands behind.  What remains of lexemes is what is left
if each remark takes along the `not`s in front of it.  If the lexemes without
their remarks are derivable, then so is what remains.
-/

namespace FilterQuery

open FilterQuery.Graph Grammar

/-- The lexeme is a `not`. -/
def Lexeme.isNot : Lexeme → Bool
  | .not _ => true
  | _ => false

theorem Lexeme.exists_of_isNot {l : Lexeme} (h : l.isNot = true) : ∃ token, l = .not token := by
  cases l <;> first | exact ⟨_, rfl⟩ | cases h

/-- The group of lexemes, if there are any. -/
def Lexeme.groupOf? : List Lexeme → Token → Option Lexeme
  | [], _ => none
  | ls, token => some (.group ls token)

/-- A group without lexemes is none. -/
theorem Lexeme.groupOf?_eq_none {ls : List Lexeme} {token : Token} :
    groupOf? ls token = none ↔ ls = [] := by
  cases ls <;> simp [groupOf?]

/-- A group has the lexemes that it is made of, and there are some. -/
theorem Lexeme.groupOf?_eq_some {ls : List Lexeme} {token : Token} {l : Lexeme} :
    groupOf? ls token = some l ↔ ls ≠ [] ∧ l = .group ls token := by
  cases ls <;> simp [groupOf?, eq_comm]

mutual

/-- The lexeme without remarks, unless nothing else is in it. -/
def erased? : Lexeme → Option Lexeme
  | .toggle .. | .comment .. => none
  | .group inner token => Lexeme.groupOf? (erasedAll inner) token
  | l => some l

/-- The lexemes without remarks, and without the groups in which nothing is
left. -/
def erasedAll : List Lexeme → List Lexeme
  | [] => []
  | l :: ls => (erased? l).toList ++ erasedAll ls

end

mutual

/-- What remains of a lexeme without remarks and the `not`s in front of them, if
anything does. -/
def remaining? : Lexeme → Option Lexeme
  | .toggle .. | .comment .. => none
  | .group inner token => Lexeme.groupOf? (remainingAll inner) token
  | l => some l

/-- What remains of lexemes without remarks and the `not`s in front of them. -/
def remainingAll : List Lexeme → List Lexeme
  | [] => []
  | l :: ls =>
    (if l.isNot && negatesRemark ls then none else remaining? l).toList ++ remainingAll ls

/-- A `not` in front of the lexemes takes a remark as its operand. -/
def negatesRemark : List Lexeme → Bool
  | [] => false
  | l :: ls => if l.isNot then negatesRemark ls else (remaining? l).isNone

end

/-- The lexeme has its place in what remains, in front of the lexemes given. -/
structure Stays (l : Lexeme) (behind : List Lexeme) (l' : Lexeme) : Prop where
  remaining : remaining? l = some l'
  negates : (l.isNot && negatesRemark behind) = false

section Remaining

variable {l l' : Lexeme} {ls ls' as bs : List Lexeme}

/-- What stays in place remains in front of the rest. -/
theorem Stays.remainingAll_cons (h : Stays l ls l') :
    remainingAll (l :: ls) = l' :: remainingAll ls := by
  rw [remainingAll, h.negates, h.remaining]
  rfl

/-- The first lexeme stays, or it goes as what a `not` in front of it would go
with. -/
theorem stays_or_goes (l : Lexeme) (ls : List Lexeme) :
    (∃ l', Stays l ls l') ∨
      negatesRemark (l :: ls) = true ∧ remainingAll (l :: ls) = remainingAll ls ∧
        (l.isNot = true → negatesRemark ls = true) ∧ (l.isNot = false → remaining? l = none) := by
  by_cases hnot : l.isNot = true
  · obtain ⟨token, rfl⟩ := Lexeme.exists_of_isNot hnot
    cases hnegates : negatesRemark ls with
    | true => exact .inr (by simp [negatesRemark, remainingAll, hnegates, Lexeme.isNot])
    | false => exact .inl ⟨_, rfl, by simp [hnegates]⟩
  · have hfalse : l.isNot = false := by simpa using hnot
    cases hremaining : remaining? l with
    | none => exact .inr (by simp [negatesRemark, remainingAll, hremaining, hfalse])
    | some l' => exact .inl ⟨l', hremaining, by simp [hfalse]⟩

/-- What stays in place does not negate a remark. -/
theorem Stays.not_negatesRemark (h : Stays l ls l') : negatesRemark (l :: ls) = false := by
  have hnegates := h.negates
  rw [negatesRemark]
  cases hnot : l.isNot with
  | true => simpa [hnot] using hnegates
  | false => simp [h.remaining]

/-- Whether lexemes are negated as remarks is seen from those in front of one
that stays. -/
theorem negatesRemark_append (h : Stays l ls l') (as : List Lexeme) :
    negatesRemark (as ++ l :: ls) = negatesRemark as := by
  induction as with
  | nil => exact h.not_negatesRemark
  | cons a as ih => rw [List.cons_append, negatesRemark, negatesRemark, ih]

/-- Lexemes of which nothing remains begin with a remark, or with `not`s in
front of one. -/
theorem negatesRemark_of_remainingAll_nil (h : remainingAll as = []) (hne : as ≠ []) :
    negatesRemark (as ++ bs) = true := by
  induction as with
  | nil => exact absurd rfl hne
  | cons a as ih =>
      rcases stays_or_goes a as with ⟨a', ha⟩ | ⟨-, hrest, hnot, hremark⟩
      · rw [ha.remainingAll_cons] at h
        cases h
      · rw [List.cons_append, negatesRemark]
        split
        · next htrue =>
            have hnegates := hnot htrue
            have hne : as ≠ [] := by
              rintro rfl
              cases hnegates
            exact ih (hrest ▸ h) hne
        · next hfalse => rw [hremark (by simpa using hfalse)]; rfl

/-- **Each remaining lexeme comes from one that stays**, and what remains on
either side of it from the lexemes on that side. -/
theorem exists_stays (h : remainingAll ls = as ++ l' :: bs) :
    ∃ before l behind, ls = before ++ l :: behind ∧ remainingAll before = as ∧ Stays l behind l' ∧
      remainingAll behind = bs := by
  induction ls generalizing as with
  | nil =>
      rw [remainingAll] at h
      cases as <;> cases h
  | cons a ls ih =>
      rcases stays_or_goes a ls with ⟨a', ha⟩ | ⟨-, hrest, hnot, hremark⟩
      · rw [ha.remainingAll_cons] at h
        cases as with
        | nil =>
            rw [List.nil_append, List.cons.injEq] at h
            obtain ⟨rfl, rfl⟩ := h
            exact ⟨[], a, ls, rfl, rfl, ha, rfl⟩
        | cons b as =>
            rw [List.cons_append, List.cons.injEq] at h
            obtain ⟨rfl, h⟩ := h
            obtain ⟨before, l, behind, rfl, rfl, hstays, hbehind⟩ := ih h
            have ha' : Stays a before a' :=
              ⟨ha.remaining, negatesRemark_append hstays before ▸ ha.negates⟩
            exact ⟨a :: before, l, behind, rfl, ha'.remainingAll_cons, hstays, hbehind⟩
      · rw [hrest] at h
        obtain ⟨before, l, behind, rfl, rfl, hstays, hbehind⟩ := ih h
        refine ⟨a :: before, l, behind, rfl, ?_, hstays, hbehind⟩
        -- What `a` is taken by or goes with stands before the lexeme that stays.
        rw [negatesRemark_append hstays] at hnot
        rw [remainingAll]
        cases hkind : a.isNot with
        | true => simp [hnot hkind]
        | false => simp [hremark hkind]

/-- A lexeme other than a group remains as it is. -/
theorem remaining?_cases (h : remaining? l = some l') :
    l' = l ∨ ∃ inner token, l = .group inner token ∧ l' = .group (remainingAll inner) token := by
  cases l with
  | group inner token =>
      exact .inr ⟨inner, token, rfl, (Lexeme.groupOf?_eq_some.mp h).2⟩
  | toggle name token => cases h
  | comment content token => cases h
  | _ => exact .inl (Option.some.inj h).symm

/-- What remains of a combinator or a leaf is the lexeme itself. -/
theorem Stays.eq (h : Stays l ls l') (hgroup : ∀ inner token, l' ≠ .group inner token) :
    l = l' := by
  rcases remaining?_cases h.remaining with rfl | ⟨inner, token, -, rfl⟩
  · rfl
  · exact absurd rfl (hgroup _ _)

end Remaining

mutual

/-- What is left of a lexeme has no empty groups. -/
theorem isFilled_of_erased? : ∀ {l l' : Lexeme}, erased? l = some l' → IsFilled l'
  | .group inner token, l', h => by
      obtain ⟨hne, rfl⟩ := Lexeme.groupOf?_eq_some.mp h
      exact ⟨hne, allFilled_erasedAll inner⟩
  | .toggle .., _, h | .comment .., _, h => by cases h
  | .and _, _, h | .or _, _, h | .not _, _, h | .nested _, _, h | .filter .., _, h
  | .word .., _, h => by
      obtain rfl := Option.some.inj h
      trivial

/-- What is left of lexemes has no empty groups. -/
theorem allFilled_erasedAll : ∀ ls : List Lexeme, AllFilled (erasedAll ls)
  | [] => trivial
  | l :: ls => by
      have hrest := allFilled_erasedAll ls
      rw [erasedAll]
      cases hl : erased? l with
      | none => exact hrest
      | some l' => exact ⟨isFilled_of_erased? hl, hrest⟩

end

mutual

/-- Erasing remarks erases empty groups as well. -/
theorem erased?_filled? : ∀ l : Lexeme, (filled? l).bind erased? = erased? l
  | .group inner token => by
      have hinner := erasedAll_filledAll inner
      rw [filled?]
      split
      · next hnothing =>
          rw [hnothing] at hinner
          rw [erased?, ← hinner]
          rfl
      · rw [Option.bind_some, erased?, erased?, hinner]
  | .and _ | .or _ | .not _ | .nested _ | .filter .. | .toggle .. | .comment .. | .word .. => rfl

/-- Groups that were empty before go as those do that become it. -/
theorem erasedAll_filledAll : ∀ ls : List Lexeme, erasedAll (filledAll ls) = erasedAll ls
  | [] => rfl
  | l :: ls => by
      rw [filledAll, erasedAll, ← erased?_filled? l, ← erasedAll_filledAll ls]
      cases filled? l <;> rfl

end

mutual

/-- What remains of a lexeme has no empty groups. -/
theorem isFilled_of_remaining? : ∀ {l l' : Lexeme}, remaining? l = some l' → IsFilled l'
  | .group inner token, l', h => by
      obtain ⟨hne, rfl⟩ := Lexeme.groupOf?_eq_some.mp h
      exact ⟨hne, allFilled_remainingAll inner⟩
  | .toggle .., _, h | .comment .., _, h => by cases h
  | .and _, _, h | .or _, _, h | .not _, _, h | .nested _, _, h | .filter .., _, h
  | .word .., _, h => by
      obtain rfl := Option.some.inj h
      trivial

/-- What remains of lexemes has no empty groups. -/
theorem allFilled_remainingAll : ∀ ls : List Lexeme, AllFilled (remainingAll ls)
  | [] => trivial
  | l :: ls => by
      have hrest := allFilled_remainingAll ls
      rcases stays_or_goes l ls with ⟨l', hl⟩ | ⟨-, hgoes, -⟩
      · rw [hl.remainingAll_cons]
        exact ⟨isFilled_of_remaining? hl.remaining, hrest⟩
      · rw [hgoes]
        exact hrest

end

/-- No group is empty exactly if none is in any of the lexemes. -/
theorem allFilled_iff {ls : List Lexeme} : AllFilled ls ↔ ∀ l ∈ ls, IsFilled l := by
  induction ls with
  | nil => simp [AllFilled]
  | cons l ls ih => simp [AllFilled, ih]

/-- Lexemes one after the other have no empty groups exactly if neither part
has. -/
theorem allFilled_append {as bs : List Lexeme} :
    AllFilled (as ++ bs) ↔ AllFilled as ∧ AllFilled bs := by
  simp only [allFilled_iff, List.forall_mem_append]

mutual

/-- No `not` in the lexeme takes a remark as its operand. -/
def sparesRemarks : Lexeme → Bool
  | .group inner _ => sparesAllRemarks inner
  | _ => true

/-- No `not` in the lexemes takes a remark as its operand. -/
def sparesAllRemarks : List Lexeme → Bool
  | [] => true
  | l :: ls => sparesRemarks l && !(l.isNot && negatesRemark ls) && sparesAllRemarks ls

end

mutual

/-- Where no `not` takes a remark, what remains is what is left without
remarks. -/
theorem remaining?_eq_erased? : ∀ {l : Lexeme}, sparesRemarks l = true → remaining? l = erased? l
  | .group inner token, h => by
      rw [remaining?, erased?, remainingAll_eq_erasedAll (by simpa [sparesRemarks] using h)]
  | .toggle .., _ | .comment .., _ | .and _, _ | .or _, _ | .not _, _ | .nested _, _
  | .filter .., _ | .word .., _ => rfl

/-- Where no `not` stands in front of a remark, what remains is what is no
remark. -/
theorem remainingAll_eq_erasedAll :
    ∀ {ls : List Lexeme}, sparesAllRemarks ls = true → remainingAll ls = erasedAll ls
  | [], _ => rfl
  | l :: ls, h => by
      simp only [sparesAllRemarks, Bool.and_eq_true, Bool.not_eq_true'] at h
      obtain ⟨⟨hl, hnegates⟩, hrest⟩ := h
      rw [remainingAll, erasedAll, hnegates, remaining?_eq_erased? hl,
        remainingAll_eq_erasedAll hrest]
      rfl

end

/-- Lexemes are erased one by one. -/
theorem erasedAll_eq_filterMap (ls : List Lexeme) : erasedAll ls = ls.filterMap erased? := by
  induction ls with
  | nil => rfl
  | cons l ls ih =>
      rw [erasedAll, ih]
      cases h : erased? l <;> simp [h]

/-- Each lexeme that is no remark comes from one with what is erased around
it. -/
theorem exists_of_erasedAll {l' : Lexeme} {ls as bs : List Lexeme}
    (h : erasedAll ls = as ++ l' :: bs) :
    ∃ before l behind, ls = before ++ l :: behind ∧ erasedAll before = as ∧ erased? l = some l' ∧
      erasedAll behind = bs := by
  simp only [erasedAll_eq_filterMap] at h ⊢
  obtain ⟨first, last, rfl, rfl, hlast⟩ := List.filterMap_eq_append_iff.mp h
  obtain ⟨skipped, l, behind, rfl, hskipped, hl, rfl⟩ := List.filterMap_eq_cons_iff.mp hlast
  refine ⟨first ++ skipped, l, behind, by simp, ?_, hl, rfl⟩
  rw [List.filterMap_append, List.filterMap_eq_nil_iff.mpr hskipped, List.append_nil]

/-- What is left of a group is the group of what is left in it. -/
theorem erased?_of_group {inner : List Lexeme} {token : Token} {l' : Lexeme}
    (h : erased? (.group inner token) = some l') : l' = .group (erasedAll inner) token :=
  (Lexeme.groupOf?_eq_some.mp h).2

/-- A lexeme that is neither a remark nor a group remains as it is. -/
theorem remaining?_of_erased? {l l' : Lexeme} (h : erased? l = some l')
    (hgroup : ∀ inner token, l' ≠ .group inner token) : l = l' ∧ remaining? l = some l' := by
  cases l with
  | group inner token => exact absurd (erased?_of_group h) (hgroup _ _)
  | toggle name token => cases h
  | comment content token => cases h
  | _ => exact ⟨Option.some.inj h, h⟩

section Remaining

variable {text : String} {l l' : Lexeme} {ls as bs : List Lexeme} {t : Tree Content}

/-- What stays in place remains between what is in front of it and what is
behind. -/
theorem Stays.remainingAll_append (h : Stays l bs l') (as : List Lexeme) :
    remainingAll (as ++ l :: bs) = remainingAll as ++ l' :: remainingAll bs := by
  induction as with
  | nil => exact h.remainingAll_cons
  | cons a as ih =>
      rw [List.cons_append, remainingAll, remainingAll, negatesRemark_append h, ih,
        List.append_assoc]

/-- Nothing depends on what is behind a lexeme that is no `not`. -/
theorem remainingAll_append_of_not_isNot {a : Lexeme} (ha : a.isNot = false)
    (as bs : List Lexeme) :
    remainingAll (as ++ a :: bs) = remainingAll (as ++ [a]) ++ remainingAll bs := by
  have hnegates : ∀ as, negatesRemark (as ++ a :: bs) = negatesRemark (as ++ [a]) := by
    intro as
    induction as with
    | nil => simp [negatesRemark, ha]
    | cons b as ih => rw [List.cons_append, List.cons_append, negatesRemark, negatesRemark, ih]
  induction as with
  | nil => simp [remainingAll, ha]
  | cons b as ih =>
      rw [List.cons_append, List.cons_append, remainingAll, remainingAll, hnegates, ih,
        List.append_assoc]

end Remaining

mutual

/-- Nothing remains of what is nothing but remarks. -/
theorem remaining?_eq_none_of_erased? : ∀ {l : Lexeme}, erased? l = none → remaining? l = none
  | .toggle .., _ | .comment .., _ => rfl
  | .group inner token, h => by
      have hinner : erasedAll inner = [] := Lexeme.groupOf?_eq_none.mp h
      exact Lexeme.groupOf?_eq_none.mpr (remainingAll_eq_nil_of_erasedAll hinner)
  | .and _, h | .or _, h | .not _, h | .nested _, h | .filter .., h | .word .., h => by cases h

/-- Nothing remains of lexemes that are nothing but remarks. -/
theorem remainingAll_eq_nil_of_erasedAll : ∀ {ls : List Lexeme}, erasedAll ls = [] →
    remainingAll ls = []
  | [], _ => rfl
  | l :: ls, h => by
      rw [erasedAll, List.append_eq_nil_iff, Option.toList_eq_nil_iff] at h
      rw [remainingAll, remaining?_eq_none_of_erased? h.1, remainingAll_eq_nil_of_erasedAll h.2]
      simp

end

/-- What is erased has no part in what remains. -/
theorem remainingAll_append_of_erased {as : List Lexeme} (h : erasedAll as = [])
    (bs : List Lexeme) : remainingAll (as ++ bs) = remainingAll bs := by
  induction as with
  | nil => rfl
  | cons a as ih =>
      rw [erasedAll, List.append_eq_nil_iff, Option.toList_eq_nil_iff] at h
      rw [List.cons_append, remainingAll, remaining?_eq_none_of_erased? h.1, ih h.2]
      simp

namespace Grammar

variable {text : String} {ls : List Lexeme} {t : Tree Content}

/-- The last lexeme of a derivation is an operand. -/
theorem Negation.exists_last {ls : List Lexeme} {t : Tree Content} (h : Negation text ls t) :
    ∃ as l u, ls = as ++ [l] ∧ Operand text l u := by
  cases h with
  | operand h => exact ⟨[], _, _, rfl, h⟩
  | not token h =>
      obtain ⟨as, l, u, hls, hl⟩ := h.exists_last
      exact ⟨.not token :: as, l, u, by rw [hls, List.cons_append], hl⟩

/-- A conjunction ends with an operand. -/
theorem Conjunction.exists_last (h : Conjunction text ls t) :
    ∃ as l u, ls = as ++ [l] ∧ Operand text l u := by
  cases h with
  | single h => exact h.exists_last
  | @written ls _ _ _ token _ right =>
      obtain ⟨as, l, u, rfl, hl⟩ := right.exists_last
      exact ⟨ls ++ .and token :: as, l, u, by simp, hl⟩
  | @omitted ls _ _ _ _ right =>
      obtain ⟨as, l, u, rfl, hl⟩ := right.exists_last
      exact ⟨ls ++ as, l, u, by simp, hl⟩

/-- A negation has lexemes. -/
theorem Negation.ne_nil (h : Negation text ls t) : ls ≠ [] := by
  cases h <;> exact List.cons_ne_nil _ _

/-- A conjunction has lexemes. -/
theorem Conjunction.ne_nil (h : Conjunction text ls t) : ls ≠ [] := by
  obtain ⟨as, l, u, rfl, -⟩ := h.exists_last
  simp

/-- A disjunction has lexemes. -/
theorem Disjunction.ne_nil (h : Disjunction text ls t) : ls ≠ [] := by
  cases h with
  | single h => exact h.ne_nil
  | or token left right => simp

/-- Nothing depends on what is behind lexemes that are a conjunction when their
remarks are erased. -/
theorem Conjunction.remainingAll_append {as : List Lexeme} (h : Conjunction text (erasedAll as) t)
    (bs : List Lexeme) : remainingAll (as ++ bs) = remainingAll as ++ remainingAll bs := by
  rcases List.eq_nil_or_concat as with rfl | ⟨init, a, rfl⟩
  · rfl
  · have ha : a.isNot = false := by
      by_contra hnot
      obtain ⟨token, rfl⟩ := Lexeme.exists_of_isNot (by simpa using hnot)
      obtain ⟨first, l, u, hlast, hl⟩ := h.exists_last
      have heq : erasedAll init ++ [.not token] = first ++ [l] := by
        rw [← hlast, erasedAll_eq_filterMap, erasedAll_eq_filterMap, List.concat_eq_append,
          List.filterMap_append]
        rfl
      obtain ⟨-, hend⟩ := List.append_inj' heq rfl
      obtain rfl := List.singleton_inj.mp hend
      cases hl
    rw [List.concat_eq_append, List.append_assoc]
    exact remainingAll_append_of_not_isNot ha init bs

/-- An operand other than a group remains as it is. -/
theorem Operand.remaining_of_ne_group {l l' : Lexeme} (h : Operand text l' t)
    (hgroup : ∀ inner token, l' ≠ .group inner token) (hl : erased? l = some l') :
    ∃ r u, remaining? l = some r ∧ l.isNot = false ∧ Operand text r u := by
  obtain ⟨rfl, hremaining⟩ := remaining?_of_erased? hl hgroup
  exact ⟨l, t, hremaining, by cases h <;> rfl, h⟩

mutual

/-- **What remains is derivable if the lexemes without their remarks are.** -/
theorem Disjunction.remaining : ∀ {ls t}, Disjunction text ls t → ∀ {ls'}, erasedAll ls' = ls →
    ∃ u, Disjunction text (remainingAll ls') u
  | _, _, .single h, _, hls => by
      obtain ⟨u, hu⟩ := h.remaining hls
      exact ⟨u, .single hu⟩
  | _, _, .or token left right, _, hls => by
      obtain ⟨before, l, behind, rfl, hbefore, hl, hbehind⟩ := exists_of_erasedAll hls
      obtain ⟨rfl, hremaining⟩ := remaining?_of_erased? hl (by simp)
      obtain ⟨u, hu⟩ := left.remaining hbefore
      obtain ⟨v, hv⟩ := right.remaining hbehind
      have hstays : Stays (.or token) behind (.or token) := ⟨hremaining, rfl⟩
      rw [hstays.remainingAll_append]
      exact ⟨_, .or token hu hv⟩

/-- What remains of a conjunction is one, if the lexemes without remarks are
one. -/
theorem Conjunction.remaining : ∀ {ls t}, Conjunction text ls t → ∀ {ls'}, erasedAll ls' = ls →
    ∃ u, Conjunction text (remainingAll ls') u
  | _, _, .single h, _, hls => by
      obtain ⟨u, hu⟩ := h.remaining hls
      exact ⟨u, .single hu⟩
  | _, _, .written token left right, _, hls => by
      obtain ⟨before, l, behind, rfl, hbefore, hl, hbehind⟩ := exists_of_erasedAll hls
      obtain ⟨rfl, hremaining⟩ := remaining?_of_erased? hl (by simp)
      obtain ⟨u, hu⟩ := left.remaining hbefore
      obtain ⟨v, hv⟩ := right.remaining hbehind
      have hstays : Stays (.and token) behind (.and token) := ⟨hremaining, rfl⟩
      rw [hstays.remainingAll_append]
      exact ⟨_, .written token hu hv⟩
  | _, _, .omitted left right, _, hls => by
      rw [erasedAll_eq_filterMap] at hls
      obtain ⟨first, last, rfl, hfirst, hlast⟩ := List.filterMap_eq_append_iff.mp hls
      rw [← erasedAll_eq_filterMap] at hfirst hlast
      obtain ⟨u, hu⟩ := left.remaining hfirst
      obtain ⟨v, hv⟩ := right.remaining hlast
      rw [Conjunction.remainingAll_append (hfirst ▸ left)]
      exact ⟨_, .omitted hu hv⟩

/-- What remains of a negation is one, if the lexemes without remarks are
one. -/
theorem Negation.remaining : ∀ {ls t}, Negation text ls t → ∀ {ls'}, erasedAll ls' = ls →
    ∃ u, Negation text (remainingAll ls') u
  | _, _, .operand h, _, hls => by
      obtain ⟨before, l, behind, rfl, hbefore, hl, hbehind⟩ :=
        exists_of_erasedAll (hls.trans (List.nil_append _).symm)
      obtain ⟨r, u, hremaining, hnot, hr⟩ := h.remaining hl
      have hstays : Stays l behind r := ⟨hremaining, by rw [hnot, Bool.false_and]⟩
      rw [remainingAll_append_of_erased hbefore, hstays.remainingAll_cons,
        remainingAll_eq_nil_of_erasedAll hbehind]
      exact ⟨u, .operand hr⟩
  | _, _, .not token h, _, hls => by
      obtain ⟨before, l, behind, rfl, hbefore, hl, hbehind⟩ :=
        exists_of_erasedAll (hls.trans (List.nil_append _).symm)
      obtain ⟨rfl, hremaining⟩ := remaining?_of_erased? hl (by simp)
      obtain ⟨u, hu⟩ := h.remaining hbehind
      rw [remainingAll_append_of_erased hbefore]
      rcases stays_or_goes (.not token) behind with ⟨r, hr⟩ | ⟨-, hgoes, -⟩
      · obtain rfl := Option.some.inj (hremaining.symm.trans hr.remaining)
        rw [hr.remainingAll_cons]
        exact ⟨_, .not token hu⟩
      · rw [hgoes]
        exact ⟨u, hu⟩

/-- What remains of an operand is one, and it was no `not`. -/
theorem Operand.remaining : ∀ {l' t}, Operand text l' t → ∀ {l}, erased? l = some l' →
    ∃ r u, remaining? l = some r ∧ l.isNot = false ∧ Operand text r u
  | _, _, .group token body, l, hl => by
      cases l with
      | group inner token' =>
          obtain ⟨hinner, -⟩ := Lexeme.group.inj (erased?_of_group hl)
          obtain ⟨u, hu⟩ := body.remaining hinner.symm
          have hremaining : remaining? (.group inner token') =
              some (.group (remainingAll inner) token') :=
            Lexeme.groupOf?_eq_some.mpr ⟨hu.ne_nil, rfl⟩
          exact ⟨_, _, hremaining, rfl, .group token' hu⟩
      | _ => cases hl
  | _, _, .word s token, _, hl => (Operand.word s token).remaining_of_ne_group (by simp) hl
  | _, _, .filter f token, _, hl => (Operand.filter f token).remaining_of_ne_group (by simp) hl
  | _, _, .nestedFilter f block token, _, hl =>
      (Operand.nestedFilter f block token).remaining_of_ne_group (by simp) hl
  | _, _, .nested block, _, hl => (Operand.nested block).remaining_of_ne_group (by simp) hl
  | _, _, .toggle name token, _, hl =>
      (Operand.toggle name token).remaining_of_ne_group (by simp) hl
  | _, _, .comment content token, _, hl =>
      (Operand.comment content token).remaining_of_ne_group (by simp) hl

end

end Grammar

end FilterQuery
