import Mathlib
import FilterQuery.Run

/-!
# The slots of runs

Calls stand between the slots of a run, but what a run yields depends on slots
alone.  Strict set operations yield the first occurrences of elements.  Fast
ones take the slots of two runs in turn and settle each slot by a rule with
memory; `settled` and `turns` say this of lists of slots, without the pieces
that a run is cut into.
-/

namespace FilterQuery.Run

variable {α : Type}

section Slots

variable (r s : Run α)

@[simp] theorem slots_call (c : Call α) : slots (.call c :: r) = r.slots := rfl

@[simp] theorem slots_slot (e : Option α) : slots (.slot e :: r) = e :: r.slots := rfl

@[simp] theorem slots_append : slots (r ++ s) = r.slots ++ s.slots := List.filterMap_append

@[simp] theorem slots_ofCalls (calls : List (Call α)) : (ofCalls calls).slots = [] := by
  induction calls with
  | nil => rfl
  | cons c calls ih => exact ih

@[simp] theorem slots_ofElements (es : List α) : (ofElements es).slots = es.map some := by
  induction es with
  | nil => rfl
  | cons e es ih => exact congrArg (some e :: ·) ih

theorem elements_eq : r.elements = r.slots.filterMap id := rfl

/-- Runs one after the other yield their elements one after the other. -/
theorem elements_append : elements (r ++ s) = r.elements ++ s.elements := by
  rw [elements_eq, slots_append, List.filterMap_append]
  rfl

/-- A run without gaps yields what is in its slots. -/
theorem elements_of_slots {es : List α} {r : Run α} (h : r.slots = es.map some) :
    r.elements = es := by
  rw [elements_eq, h, List.filterMap_map]
  exact List.filterMap_some

@[simp] theorem elements_ofElements (es : List α) : (ofElements es).elements = es :=
  elements_of_slots (slots_ofElements es)

/-- Dropping empty slots keeps the elements. -/
@[simp] theorem elements_withoutEmpty : r.withoutEmpty.elements = r.elements := by
  induction r with
  | nil => rfl
  | cons event r ih =>
      match event with
      | .call c => exact ih
      | .slot none => exact ih
      | .slot (some e) => exact congrArg (e :: ·) ih

/-- A search finds an element exactly if the run yields one with the
property. -/
theorem search_value (p : α → Noted (Call α) Bool) :
    (r.search p).value = r.elements.any fun e => (p e).value := by
  induction r with
  | nil => rfl
  | cons event r ih =>
      match event with
      | .call c => exact ih
      | .slot none => exact ih
      | .slot (some e) =>
          have helements : elements (.slot (some e) :: r) = e :: elements r := rfl
          rw [search, helements, List.any_cons, Noted.value_bind]
          cases (p e).value with
          | true => rfl
          | false => simpa using ih

end Slots

section Strict

variable [BEq α]

/-- The elements with a property that were not seen before, each at its first
occurrence. -/
def firsts (p : α → Bool) : (seen : List α) → List α → List α
  | _, [] => []
  | seen, e :: es =>
    if p e && !seen.contains e then e :: firsts p (e :: seen) es else firsts p seen es

/-- Leaving out repeated elements leaves the first of each. -/
theorem keepFirst_slots (p : α → Bool) (seen : List α) (r : Run α) :
    (keepFirst p seen r).slots = (firsts p seen r.elements).map some := by
  induction r generalizing seen with
  | nil => rfl
  | cons event r ih =>
      match event with
      | .call c => exact ih seen
      | .slot none => exact ih seen
      | .slot (some e) =>
          have helements : elements (.slot (some e) :: r) = e :: elements r := rfl
          rw [keepFirst, helements, firsts]
          split
          · rw [slots_slot, ih, List.map_cons]
          · exact ih seen

/-- An intersection yields the elements of the left side that the right one
has. -/
theorem intersection_slots (left right : Run α) :
    (left.intersection right).slots =
      (firsts right.elements.contains [] left.elements).map some := by
  rw [intersection, slots_append, slots_ofCalls, List.nil_append, keepFirst_slots]

/-- A union yields the elements of both sides, each once. -/
theorem union_slots (left right : Run α) :
    (left.union right).slots =
      (firsts (fun _ => true) [] (left.elements ++ right.elements)).map some := by
  rw [union, keepFirst_slots, elements_append]

end Strict

section Fast

/-- The members of two lists in turn, the left one first; what is left of the
longer one follows. -/
def turns {β : Type} : List β → List β → List (Side × β)
  | a :: as, b :: bs => (.left, a) :: (.right, b) :: turns as bs
  | as, [] => as.map (.left, ·)
  | [], bs => bs.map (.right, ·)

@[simp] theorem turns_nil_left {β : Type} (bs : List β) : turns [] bs = bs.map (.right, ·) := by
  cases bs <;> rfl

@[simp] theorem turns_nil_right {β : Type} (as : List β) : turns as [] = as.map (.left, ·) := by
  cases as <;> rfl

/-- Empties the slots whose elements are not yielded. -/
def settled (rule : Rule α) : Memory α → List (Side × Option α) → List (Option α)
  | _, [] => []
  | m, (_, none) :: rest => none :: settled rule m rest
  | m, (side, some e) :: rest =>
    (if (rule side e m).1 then some e else none) :: settled rule (rule side e m).2 rest

/-- The slots of pieces, each with the side that its piece is from. -/
def sided (pieces : List (Side × Run α)) : List (Side × Option α) :=
  pieces.flatMap fun (side, piece) => piece.slots.map (side, ·)

/-- Settling the slots of a run settles them one by one. -/
theorem settle_slots (rule : Rule α) (side : Side) (m : Memory α) (r : Run α)
    (rest : List (Side × Option α)) :
    (settle rule side m r).1.slots ++ settled rule (settle rule side m r).2 rest =
      settled rule m (r.slots.map (side, ·) ++ rest) := by
  induction r generalizing m with
  | nil => rfl
  | cons event r ih =>
      match event with
      | .call c => exact ih m
      | .slot none => exact congrArg (none :: ·) (ih m)
      | .slot (some e) => exact congrArg (_ :: ·) (ih _)

/-- Merged pieces have their slots settled in turn. -/
theorem settleAll_slots (rule : Rule α) (m : Memory α) (pieces : List (Side × Run α)) :
    (settleAll rule m pieces).slots = settled rule m (sided pieces) := by
  induction pieces generalizing m with
  | nil => rfl
  | cons head pieces ih =>
      obtain ⟨side, piece⟩ := head
      rw [settleAll, slots_append, ih]
      exact settle_slots rule side m piece (sided pieces)

/-- A run is cut into pieces of one slot each and a last piece of none. -/
theorem pulls_slots (r : Run α) : (pulls r).map slots = r.slots.map ([·]) ++ [[]] := by
  induction r with
  | nil => rfl
  | cons event r ih =>
      match event with
      | .slot e => exact congrArg ([e] :: ·) ih
      | .call c =>
          rw [slots_call, ← ih, pulls]
          cases h : pulls r with
          | nil => simp [h] at ih
          | cons piece pieces => rfl

/-- Pieces of one side have slots of that side. -/
theorem sided_map (side : Side) (pieces : List (Run α)) :
    sided (pieces.map (side, ·)) = (pieces.flatMap slots).map (side, ·) := by
  simp [sided, List.flatMap_map, List.map_flatMap]

/-- Pulls give one slot each, and the last one none. -/
theorem flatMap_slots {xs : List (Option α)} {pieces : List (Run α)}
    (h : pieces.map slots = xs.map ([·]) ++ [[]]) : pieces.flatMap slots = xs := by
  rw [List.flatMap_def, h, List.flatten_append, ← List.flatMap_def, List.flatMap_singleton']
  simp

/-- Two runs pulled in turn have their slots in turn. -/
theorem sided_alternate {xs ys : List (Option α)} {ps qs : List (Run α)}
    (hp : ps.map slots = xs.map ([·]) ++ [[]]) (hq : qs.map slots = ys.map ([·]) ++ [[]]) :
    sided (alternate ps qs) = turns xs ys := by
  induction xs generalizing ps qs ys with
  | nil =>
      obtain ⟨p, rfl, hpx⟩ := List.map_eq_singleton_iff.mp hp
      have hys := flatMap_slots hq
      cases qs with
      | nil => simp at hq
      | cons q qs =>
          have halternate : alternate [p] (q :: qs) = (.left, p) :: (q :: qs).map (.right, ·) := by
            cases qs <;> rfl
          rw [halternate, turns_nil_left, ← hys, ← sided_map]
          simp [sided, hpx]
  | cons x xs ih =>
      rw [List.map_cons, List.cons_append] at hp
      obtain ⟨p, ps, rfl, hpx, hps⟩ := List.map_eq_cons_iff.mp hp
      cases ys with
      | nil =>
          obtain ⟨q, rfl, hqy⟩ := List.map_eq_singleton_iff.mp hq
          have halternate : alternate (p :: ps) [q] =
              (.left, p) :: (.right, q) :: ps.map (.left, ·) := by
            cases ps <;> rfl
          have hrest := sided_map .left ps
          rw [flatMap_slots hps] at hrest
          rw [halternate, turns_nil_right, List.map_cons, ← hrest]
          simp [sided, hpx, hqy]
      | cons y ys =>
          rw [List.map_cons, List.cons_append] at hq
          obtain ⟨q, qs, rfl, hqy, hqs⟩ := List.map_eq_cons_iff.mp hq
          have hrest := ih hps hqs
          rw [alternate, turns, ← hrest]
          simp [sided, hpx, hqy]

/-- **What a fast set operation yields.**  The slots of both runs in turn,
settled by the rule. -/
theorem merge_slots (rule : Rule α) (left right : Run α) :
    (merge rule left right).slots = settled rule {} (turns left.slots right.slots) := by
  rw [merge, settleAll_slots, sided_alternate (pulls_slots left) (pulls_slots right)]

end Fast

end FilterQuery.Run
