import FilterQuery.Plan
import FilterQuery.Proofs.Equivalence

/-!
# Set expressions

Set operations over nested queries are evaluated in two ways.  Strict evaluation
keeps the first occurrences of the elements of the left operand that belong to
the result.  Fast evaluation takes the operands in turn and keeps an element
once it is known to belong to the result.  The two agree on which elements there
are, though not on their order: an invariant of the memory of the fast rule says
that whatever both sides have shown has been yielded.

Elements are compared by `==`, which need not be equality.
-/

namespace FilterQuery

variable {α : Type} [BEq α]

section Lists

/-- No element equals a later one. -/
def Distinct (es : List α) : Prop := es.Pairwise fun a b => (a == b) = false

namespace Run

/-- First occurrences, as a filtered list without its repetitions. -/
theorem firsts_eq (p : α → Bool) (seen es : List α) :
    firsts p seen es = ((es.filter p).filter fun e => !seen.contains e).eraseDups := by
  induction es generalizing seen with
  | nil => rfl
  | cons e es ih =>
      rw [firsts]
      by_cases hp : p e = true
      · cases hseen : seen.contains e with
        | true => simp [hp, hseen, ih]
        | false =>
            rw [if_pos (by simp [hp]), ih, List.filter_cons_of_pos hp,
              List.filter_cons_of_pos (by simp [hseen]), List.eraseDups_cons, List.filter_filter,
              List.filter_filter, List.filter_filter]
            congr 2
            refine List.filter_congr fun x _ => ?_
            rw [List.contains_cons, Bool.not_or, Bool.and_assoc]
      · simp [hp, ih]

/-- The first occurrences hold each element with the property that was not seen
before. -/
theorem firsts_contains [EquivBEq α] {p : α → Bool} (hp : ∀ a b, (a == b) = true → p a = p b)
    (seen es : List α) (e : α) :
    (firsts p seen es).contains e = (es.contains e && p e && !seen.contains e) := by
  induction es generalizing seen with
  | nil => rfl
  | cons a es ih =>
      rw [firsts, List.contains_cons]
      by_cases hea : (e == a) = true
      · have hpe := hp e a hea
        have hseen := List.contains_congr (l := seen) hea
        split
        · next hfirst => simpa [hea, hpe, hseen] using hfirst
        · next hlater =>
            rw [ih, hpe, hseen]
            cases hpa : p a <;> cases hsa : seen.contains a <;> simp_all
      · split
        · simp [ih, hea]
        · simp [ih, hea]

/-- No first occurrence was seen before. -/
theorem not_contains_of_mem_firsts {p : α → Bool} {seen es : List α} {e : α}
    (h : e ∈ firsts p seen es) : seen.contains e = false := by
  induction es generalizing seen with
  | nil => cases h
  | cons a es ih =>
      rw [firsts] at h
      split at h
      · next hfirst =>
          rcases List.mem_cons.mp h with rfl | h
          · simpa using (Bool.and_eq_true_iff.mp hfirst).2
          · have hseen := ih h
            rw [List.contains_cons, Bool.or_eq_false_iff] at hseen
            exact hseen.2
      · exact ih h

/-- First occurrences are distinct. -/
theorem firsts_distinct [EquivBEq α] (p : α → Bool) (seen es : List α) :
    Distinct (firsts p seen es) := by
  induction es generalizing seen with
  | nil => exact .nil
  | cons a es ih =>
      rw [firsts]
      split
      · refine .cons (fun e he => ?_) (ih _)
        have hseen := not_contains_of_mem_firsts he
        rw [List.contains_cons, Bool.or_eq_false_iff] at hseen
        rw [BEq.comm]
        exact hseen.1
      · exact ih seen

end Run

end Lists

namespace Run

section Turns

omit [BEq α]

/-- The elements that one side shows. -/
def shown (side : Side) (l : List (Side × Option α)) : List α :=
  l.filterMap fun pulled => if pulled.1 = side then pulled.2 else none

/-- Slots of one side are shown by that side only. -/
theorem shown_map (side side' : Side) (xs : List (Option α)) :
    shown side (xs.map (side', ·)) = if side' = side then xs.filterMap id else [] := by
  rw [shown, List.filterMap_map]
  split
  · next h => simp [h]
  · next h => simp [h]

/-- Two sides pulled in turn show what each of them has. -/
theorem shown_turns (xs ys : List (Option α)) :
    shown .left (turns xs ys) = xs.filterMap id ∧ shown .right (turns xs ys) = ys.filterMap id := by
  induction xs generalizing ys with
  | nil => simp [shown_map]
  | cons x xs ih =>
      cases ys with
      | nil =>
          rw [turns_nil_right, shown_map, shown_map]
          exact ⟨rfl, rfl⟩
      | cons y ys =>
          obtain ⟨hleft, hright⟩ := ih ys
          constructor
          · rw [List.filterMap_cons, ← hleft, turns]
            cases x <;> rfl
          · rw [List.filterMap_cons, ← hright, turns]
            cases y <;> rfl

/-- Two sides pulled in turn take all slots of both. -/
theorem turns_length {β : Type} (xs ys : List β) :
    (turns xs ys).length = xs.length + ys.length := by
  induction xs generalizing ys with
  | nil => simp
  | cons x xs ih =>
      cases ys with
      | nil => simp
      | cons y ys =>
          rw [turns, List.length_cons, List.length_cons, ih, List.length_cons, List.length_cons]
          omega

/-- A slot for each slot pulled. -/
theorem settled_length (rule : Rule α) (m : Memory α) (l : List (Side × Option α)) :
    (settled rule m l).length = l.length := by
  induction l generalizing m with
  | nil => rfl
  | cons pulled l ih =>
      match pulled with
      | (side, none) => exact congrArg (· + 1) (ih m)
      | (side, some e) => exact congrArg (· + 1) (ih (rule side e m).2)

end Turns

/-- The rule yields an element once, and remembers what it has yielded. -/
structure Rule.YieldsOnce (rule : Rule α) : Prop where
  yields : ∀ side e m, (rule side e m).1 = true →
    m.yielded.contains e = false ∧ (rule side e m).2.yielded = e :: m.yielded
  keeps : ∀ side e m, (rule side e m).1 = false → (rule side e m).2.yielded = m.yielded

/-- The elements that a side has shown. -/
def Memory.seen (m : Memory α) : Side → List α
  | .left => m.seenLeft
  | .right => m.seenRight

def Side.other : Side → Side
  | .left => .right
  | .right => .left

/-- The intersection yields an element that the other side has shown and that
has not been yielded. -/
theorem intersectionRule_eq (side : Side) (e : α) (m : Memory α) :
    let yields := (m.seen side.other).contains e && !m.yielded.contains e
    (intersectionRule side e m).1 = yields ∧
      (intersectionRule side e m).2.yielded = (if yields then e :: m.yielded else m.yielded) ∧
      ∀ s, (intersectionRule side e m).2.seen s = if s = side then e :: m.seen s else m.seen s := by
  intro yields
  cases hyields : yields with
  | true =>
      have hrule : intersectionRule side e m =
          (true, { seenLeft := if side = .left then e :: m.seenLeft else m.seenLeft
                   seenRight := if side = .right then e :: m.seenRight else m.seenRight
                   yielded := e :: m.yielded }) := by
        cases side <;> exact if_pos hyields
      rw [hrule]
      exact ⟨rfl, rfl, fun s => by cases s <;> cases side <;> rfl⟩
  | false =>
      have hrule : intersectionRule side e m =
          (false, { seenLeft := if side = .left then e :: m.seenLeft else m.seenLeft
                    seenRight := if side = .right then e :: m.seenRight else m.seenRight
                    yielded := m.yielded }) := by
        cases side <;> exact if_neg (ne_true_of_eq_false hyields)
      rw [hrule]
      exact ⟨rfl, rfl, fun s => by cases s <;> cases side <;> rfl⟩

/-- The union yields an element that has not been yielded. -/
theorem unionRule_eq (side : Side) (e : α) (m : Memory α) :
    (unionRule side e m).1 = (!m.yielded.contains e) ∧
      (unionRule side e m).2.yielded =
        if m.yielded.contains e then m.yielded else e :: m.yielded := by
  rw [unionRule]
  cases m.yielded.contains e with
  | true => exact ⟨rfl, rfl⟩
  | false => exact ⟨rfl, rfl⟩

/-- The intersection yields each element once. -/
theorem intersectionRule_yieldsOnce : Rule.YieldsOnce (intersectionRule : Rule α) where
  yields side e m h := by
    obtain ⟨hyields, hyielded, -⟩ := intersectionRule_eq side e m
    rw [hyields] at h
    rw [hyielded, if_pos h]
    exact ⟨by simpa using (Bool.and_eq_true_iff.mp h).2, rfl⟩
  keeps side e m h := by
    obtain ⟨hyields, hyielded, -⟩ := intersectionRule_eq side e m
    rw [hyields] at h
    rw [hyielded, if_neg (ne_true_of_eq_false h)]

/-- The union yields each element once. -/
theorem unionRule_yieldsOnce : Rule.YieldsOnce (unionRule : Rule α) where
  yields side e m h := by
    obtain ⟨hyields, hyielded⟩ := unionRule_eq side e m
    rw [hyields, Bool.not_eq_true'] at h
    rw [hyielded, h]
    exact ⟨rfl, rfl⟩
  keeps side e m h := by
    obtain ⟨hyields, hyielded⟩ := unionRule_eq side e m
    rw [hyields, Bool.not_eq_false'] at h
    rw [hyielded, if_pos h]

omit [BEq α] in
/-- The elements behind a pulled element. -/
theorem settled_elements_cons (rule : Rule α) (m : Memory α) (side : Side) (e : α)
    (l : List (Side × Option α)) :
    (settled rule m ((side, some e) :: l)).filterMap id =
      if (rule side e m).1 then e :: (settled rule (rule side e m).2 l).filterMap id
      else (settled rule (rule side e m).2 l).filterMap id := by
  rw [settled]
  cases (rule side e m).1 with
  | true => rfl
  | false => rfl

/-- What is yielded from now on has not been yielded before. -/
theorem not_contains_of_mem_settled {rule : Rule α} (hrule : rule.YieldsOnce) {m : Memory α}
    {l : List (Side × Option α)} {e : α} (h : e ∈ (settled rule m l).filterMap id) :
    m.yielded.contains e = false := by
  induction l generalizing m with
  | nil => cases h
  | cons pulled l ih =>
      match pulled with
      | (side, none) => exact ih h
      | (side, some a) =>
          rw [settled_elements_cons] at h
          split at h
          · next hyields =>
              obtain ⟨hnew, hyielded⟩ := hrule.yields side a m hyields
              rcases List.mem_cons.mp h with rfl | h
              · exact hnew
              · have hlater := ih h
                rw [hyielded, List.contains_cons, Bool.or_eq_false_iff] at hlater
                exact hlater.2
          · next hkeeps =>
              have hlater := ih h
              rwa [hrule.keeps side a m (Bool.not_eq_true _ ▸ hkeeps)] at hlater

/-- **Nothing is yielded twice.** -/
theorem settled_distinct [EquivBEq α] {rule : Rule α} (hrule : rule.YieldsOnce) (m : Memory α)
    (l : List (Side × Option α)) : Distinct ((settled rule m l).filterMap id) := by
  induction l generalizing m with
  | nil => exact .nil
  | cons pulled l ih =>
      match pulled with
      | (side, none) => exact ih m
      | (side, some a) =>
          rw [settled_elements_cons]
          split
          · next hyields =>
              obtain ⟨-, hyielded⟩ := hrule.yields side a m hyields
              refine .cons (fun e he => ?_) (ih _)
              have hlater := not_contains_of_mem_settled hrule he
              rw [hyielded, List.contains_cons, Bool.or_eq_false_iff] at hlater
              rw [BEq.comm]
              exact hlater.1
          · exact ih _

omit [BEq α] in
/-- A slot in front is shown by its own side. -/
theorem shown_cons (side side' : Side) (slot : Option α) (l : List (Side × Option α)) :
    shown side ((side', slot) :: l) =
      if side' = side then slot.toList ++ shown side l else shown side l := by
  rw [shown, List.filterMap_cons]
  by_cases h : side' = side
  · cases slot <;> simp [h, shown]
  · simp [h, shown]

/-- A union yields what either side shows. -/
theorem settled_union_contains [EquivBEq α] (m : Memory α) (l : List (Side × Option α)) (e : α) :
    ((settled unionRule m l).filterMap id).contains e =
      (((shown .left l).contains e || (shown .right l).contains e) && !m.yielded.contains e) := by
  induction l generalizing m with
  | nil => rfl
  | cons pulled l ih =>
      match pulled with
      | (side, none) =>
          have hrest : (settled unionRule m ((side, none) :: l)).filterMap id =
              (settled unionRule m l).filterMap id := rfl
          rw [hrest, ih, shown_cons, shown_cons]
          cases side <;> rfl
      | (side, some a) =>
          obtain ⟨hyields, hyielded⟩ := unionRule_eq side a m
          have hshown : ((shown .left ((side, some a) :: l)).contains e ||
              (shown .right ((side, some a) :: l)).contains e) =
                (e == a || ((shown .left l).contains e || (shown .right l).contains e)) := by
            rw [shown_cons, shown_cons]
            cases side <;> simp [Bool.or_left_comm, Bool.or_assoc]
          rw [settled_elements_cons, hyields, hshown]
          have hcontains := ih (unionRule side a m).2
          rw [hyielded] at hcontains
          by_cases hea : (e == a) = true
          · have hsame := List.contains_congr (l := m.yielded) hea
            cases hold : m.yielded.contains a with
            | true => simp_all
            | false => simp_all
          · cases hold : m.yielded.contains a with
            | true => simp_all
            | false => simp_all

/-- The invariant of the memory of an intersection: what both sides have shown
has been yielded. -/
def Memory.UpToDate (m : Memory α) : Prop :=
  ∀ e, (m.seen .left).contains e = true → (m.seen .right).contains e = true →
    m.yielded.contains e = true

/-- One more element keeps the memory of an intersection up to date. -/
theorem Memory.UpToDate.pull [EquivBEq α] {m : Memory α} (h : m.UpToDate) (side : Side) (a : α) :
    (intersectionRule side a m).2.UpToDate := by
  intro e hleft hright
  obtain ⟨-, hyielded, hseen⟩ := intersectionRule_eq side a m
  rw [hseen] at hleft hright
  rw [hyielded]
  by_cases hea : (e == a) = true
  · have hsame : ∀ es : List α, es.contains e = es.contains a := fun es => List.contains_congr hea
    split
    · simp [hea]
    · next hold =>
        rw [hsame] at hleft hright ⊢
        cases side <;> simp_all [Side.other]
  · have hold : m.yielded.contains e = true := by
      refine h e ?_ ?_
      · cases side <;> simpa [hea] using hleft
      · cases side <;> simpa [hea] using hright
    split
    · simp [hold]
    · exact hold

/-- An intersection yields what both sides show. -/
theorem settled_intersection_contains [EquivBEq α] {m : Memory α} (h : m.UpToDate)
    (l : List (Side × Option α)) (e : α) :
    ((settled intersectionRule m l).filterMap id).contains e =
      ((m.seen .left ++ shown .left l).contains e && (m.seen .right ++ shown .right l).contains e &&
        !m.yielded.contains e) := by
  induction l generalizing m with
  | nil =>
      -- What both sides have shown has been yielded, so that nothing is left to yield.
      have hnone := h e
      simp only [settled, shown, List.filterMap_nil, List.append_nil, List.contains_nil]
      cases hleft : (m.seen .left).contains e <;> cases hright : (m.seen .right).contains e <;>
        simp_all
  | cons pulled l ih =>
      match pulled with
      | (side, none) =>
          have hrest : (settled intersectionRule m ((side, none) :: l)).filterMap id =
              (settled intersectionRule m l).filterMap id := rfl
          rw [hrest, ih h, shown_cons, shown_cons]
          cases side <;> rfl
      | (side, some a) =>
          obtain ⟨hyields, hyielded, hseen⟩ := intersectionRule_eq side a m
          -- The pulled element has been shown by now, instead of being shown next.
          have hside : ∀ s, ((intersectionRule side a m).2.seen s ++ shown s l).contains e =
              (m.seen s ++ shown s ((side, some a) :: l)).contains e := by
            intro s
            rw [hseen, shown_cons]
            by_cases hs : s = side
            · simp [hs, Bool.or_left_comm]
            · simp [hs, Ne.symm hs]
          have hcontains := ih (h.pull side a)
          rw [hside, hside, hyielded] at hcontains
          rw [settled_elements_cons, hyields]
          split
          · next hnew =>
              rw [if_pos hnew] at hcontains
              rw [List.contains_cons, hcontains]
              by_cases hea : (e == a) = true
              · have hsame : ∀ es : List α, es.contains e = es.contains a := fun es =>
                  List.contains_congr hea
                obtain ⟨hother, hyet⟩ := Bool.and_eq_true_iff.mp hnew
                have hpulled : ∀ s,
                    (m.seen s ++ shown s ((side, some a) :: l)).contains a = true := by
                  intro s
                  rw [shown_cons]
                  cases s <;> cases side <;> simp_all [Side.other]
                rw [hsame, hsame, hsame m.yielded, hpulled, hpulled, hyet, hea]
                rfl
              · simp [hea]
          · next hold =>
              rw [if_neg hold] at hcontains
              exact hcontains

end Run

namespace Plan

omit [BEq α] in
/-- Set operations over nested queries, and over aggregates of one nested query
each. -/
inductive IsSetExpression : Plan α → Prop where
  | nested (query filter : String) (handler : String → String → List α) :
      IsSetExpression (.nested query filter handler)
  | aggregate (a : Aggregator α) (query filter : String) (handler : String → String → List α) :
      IsSetExpression (.aggregate a (.nested query filter handler))
  | intersection {a b : Plan α} (ha : IsSetExpression a) (hb : IsSetExpression b) :
      IsSetExpression (.intersection a b)
  | union {a b : Plan α} (ha : IsSetExpression a) (hb : IsSetExpression b) :
      IsSetExpression (.union a b)

omit [BEq α] in
/-- The sequences of the leaves of a set expression. -/
def sequences : Plan α → List (List α)
  | .nested query filter handler => [handler query filter]
  | .aggregate a (.nested query filter handler) => [a.reduce (handler query filter)]
  | .intersection a b => a.sequences ++ b.sequences
  | .union a b => a.sequences ++ b.sequences
  | _ => []

/-- A nested query yields what its handler gives. -/
theorem nested_slots (query filter : String) (handler : String → String → List α) (mode : Mode)
    (payload : List α) :
    ((nested query filter handler).run mode payload).slots = (handler query filter).map some := by
  rw [run]
  exact Run.slots_ofElements _

/-- An aggregate yields what is made of the elements of its nested query. -/
theorem aggregate_nested_slots (a : Aggregator α) (query filter : String)
    (handler : String → String → List α) (mode : Mode) (payload : List α) :
    ((aggregate a (.nested query filter handler)).run mode payload).slots =
      (a.reduce (handler query filter)).map some := by
  rw [aggregate_slots, Run.elements_of_slots (nested_slots query filter handler mode [])]

/-- **Fast evaluation yields a slot for each member of a leaf.** -/
theorem IsSetExpression.fast_length {p : Plan α} (h : p.IsSetExpression) (payload : List α) :
    (p.run .fast payload).slots.length = (p.sequences.map List.length).sum := by
  induction h generalizing payload with
  | nested query filter handler =>
      rw [nested_slots]
      simp [sequences]
  | aggregate a query filter handler =>
      rw [aggregate_nested_slots]
      simp [sequences]
  | intersection _ _ iha ihb =>
      rw [run, Run.merge_slots, Run.settled_length, Run.turns_length, iha, ihb, sequences,
        List.map_append, List.sum_append]
  | union _ _ iha ihb =>
      rw [run, Run.merge_slots, Run.settled_length, Run.turns_length, iha, ihb, sequences,
        List.map_append, List.sum_append]

section Operations

variable (a b : Plan α) (payload : List α)

/-- A strict intersection yields the first occurrences of what both sides
have. -/
theorem strict_intersection_slots :
    ((intersection a b).run .strict payload).slots =
      ((a.run .strict []).elements.filter (b.run .strict []).elements.contains).eraseDups.map
        some := by
  rw [run, Run.intersection_slots, Run.firsts_eq]
  simp

/-- A strict union yields the first occurrences of what either side has. -/
theorem strict_union_slots :
    ((union a b).run .strict payload).slots =
      ((a.run .strict []).elements ++ (b.run .strict []).elements).eraseDups.map some := by
  rw [run, Run.union_slots, Run.firsts_eq]
  simp

variable [EquivBEq α] (e : α)

/-- A strict intersection holds what both sides hold. -/
theorem strict_intersection_contains :
    ((intersection a b).run .strict payload).elements.contains e =
      ((a.run .strict []).elements.contains e && (b.run .strict []).elements.contains e) := by
  rw [run, Run.elements_of_slots (Run.intersection_slots _ _),
    Run.firsts_contains fun _ _ h => List.contains_congr h]
  simp

/-- A strict union holds what either side holds. -/
theorem strict_union_contains :
    ((union a b).run .strict payload).elements.contains e =
      ((a.run .strict []).elements.contains e || (b.run .strict []).elements.contains e) := by
  rw [run, Run.elements_of_slots (Run.union_slots _ _), Run.firsts_contains fun _ _ _ => rfl]
  simp

/-- A fast intersection holds what both sides hold. -/
theorem fast_intersection_contains :
    ((intersection a b).run .fast payload).elements.contains e =
      ((a.run .fast []).elements.contains e && (b.run .fast []).elements.contains e) := by
  obtain ⟨hleft, hright⟩ := Run.shown_turns (a.run .fast []).slots (b.run .fast []).slots
  have hempty : Run.Memory.UpToDate ({} : Run.Memory α) := fun _ hnone => by cases hnone
  rw [run, Run.elements_eq, Run.merge_slots, Run.settled_intersection_contains hempty, hleft,
    hright]
  simp [Run.Memory.seen, Run.elements_eq]

/-- A fast union holds what either side holds. -/
theorem fast_union_contains :
    ((union a b).run .fast payload).elements.contains e =
      ((a.run .fast []).elements.contains e || (b.run .fast []).elements.contains e) := by
  obtain ⟨hleft, hright⟩ := Run.shown_turns (a.run .fast []).slots (b.run .fast []).slots
  rw [run, Run.elements_eq, Run.merge_slots, Run.settled_union_contains, hleft, hright]
  simp [Run.elements_eq]

end Operations

/-- **Fast and strict evaluation yield the same elements.** -/
theorem IsSetExpression.fast_contains [EquivBEq α] {p : Plan α} (h : p.IsSetExpression)
    (payload : List α) (e : α) :
    (p.run .fast payload).elements.contains e = (p.run .strict payload).elements.contains e := by
  induction h generalizing payload with
  | nested query filter handler =>
      rw [Run.elements_eq, Run.elements_eq, nested_slots, nested_slots]
  | aggregate a query filter handler =>
      rw [Run.elements_eq, Run.elements_eq, aggregate_nested_slots, aggregate_nested_slots]
  | @intersection a b _ _ iha ihb =>
      rw [fast_intersection_contains, strict_intersection_contains, iha, ihb]
  | @union a b _ _ iha ihb => rw [fast_union_contains, strict_union_contains, iha, ihb]

end Plan

omit [BEq α] in
/-- A set operation at the root of a plan. -/
inductive Plan.IsSetOperation : Plan α → Prop where
  | intersection (a b : Plan α) : IsSetOperation (.intersection a b)
  | union (a b : Plan α) : IsSetOperation (.union a b)

/-- **Fast and strict evaluation of set expressions agree.**  Strict evaluation
yields first occurrences: of the elements of the left operand that the right one
has too, or of those of either.  Fast evaluation yields one slot for each member
of a leaf.  In both the elements of a set operation are distinct, and they are
the same. -/
theorem set_expressions_agree [EquivBEq α] {p : Plan α} (h : p.IsSetExpression) (payload : List α) :
    (∀ a b, p = .intersection a b → (p.run .strict payload).slots =
        ((a.run .strict []).elements.filter (b.run .strict []).elements.contains).eraseDups.map
          some) ∧
      (∀ a b, p = .union a b → (p.run .strict payload).slots =
        ((a.run .strict []).elements ++ (b.run .strict []).elements).eraseDups.map some) ∧
      (p.run .fast payload).slots.length = (p.sequences.map List.length).sum ∧
      (p.IsSetOperation →
        Distinct (p.run .strict payload).elements ∧ Distinct (p.run .fast payload).elements ∧
          ∀ e, (p.run .fast payload).elements.contains e =
            (p.run .strict payload).elements.contains e) := by
  refine ⟨?_, ?_, h.fast_length payload, fun hoperation => ?_⟩
  · rintro a b rfl
    exact Plan.strict_intersection_slots a b payload
  · rintro a b rfl
    exact Plan.strict_union_slots a b payload
  · refine ⟨?_, ?_, h.fast_contains payload⟩
    · cases hoperation with
      | intersection a b =>
          rw [Plan.run, Run.elements_of_slots (Run.intersection_slots _ _)]
          exact Run.firsts_distinct _ _ _
      | union a b =>
          rw [Plan.run, Run.elements_of_slots (Run.union_slots _ _)]
          exact Run.firsts_distinct _ _ _
    · cases hoperation with
      | intersection a b =>
          rw [Plan.run, Run.elements_eq, Run.merge_slots]
          exact Run.settled_distinct Run.intersectionRule_yieldsOnce _ _
      | union a b =>
          rw [Plan.run, Run.elements_eq, Run.merge_slots]
          exact Run.settled_distinct Run.unionRule_yieldsOnce _ _

/-- The union of a nested query with its first element, intersected with another
nested query. -/
theorem set_expression_of_three_leaves :
    let handler : String → String → List Nat := fun query _ =>
      if query = "a" then [3, 1, 3, 2] else [2, 3, 4]
    let a : Plan Nat := .nested "a" "" handler
    let p : Plan Nat := .intersection (.union a (.aggregate .first a)) (.nested "b" "" handler)
    (p.run .strict []).slots = [some 3, some 2] ∧ (p.run .fast []).slots.length = 8 ∧
      Distinct (p.run .fast []).elements := by
  intro handler a p
  have hp : p.IsSetExpression :=
    .intersection (.union (.nested ..) (.aggregate ..)) (.nested ..)
  obtain ⟨hstrict, -, hlength, hagree⟩ := set_expressions_agree hp []
  exact ⟨(hstrict _ _ rfl).trans (by decide), hlength.trans (by decide),
    (hagree (.intersection _ _)).2.1⟩

end FilterQuery
