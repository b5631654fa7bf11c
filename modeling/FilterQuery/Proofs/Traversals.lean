import FilterQuery.Query
import FilterQuery.Proofs.SetExpressions

/-!
# Traversals

The run of a plan says what happens when all of it is pulled.  A traversal says
how: it is what is left to pull from, and each pull makes some calls, gives a
slot or nothing, and leaves a traversal.  Operands are pulled when their
operation needs them: an intersection collects its right operand first, a union
goes over to its right operand when the left one has ended, an aggregator
collects its operand, and a fast operation pulls from its operands in turn.

Every pull comes to an end, and what traversals pull is the run: nothing is left
out of it, and nothing happens twice.
-/

namespace FilterQuery

open Run (ofCalls ofElements Side Rule Memory)

variable {α : Type}

/-- What is left of a traversal. -/
inductive Traversal (α : Type) where
  | elements (es : List α)
  | select (c : Condition α) (mode : Mode) (payload : List α)
  /-- The handler has not been called yet. -/
  | nested (query filter : String) (handler : String → String → List α)
  /-- The source is still being collected. -/
  | aggregate (a : Aggregator α) (collected : List α) (source : Traversal α)
  /-- The right operand is still being collected. -/
  | intersection (collected : List α) (left right : Traversal α)
  /-- The elements that are accepted, each once. -/
  | keeping (accepts : α → Bool) (emitted : List α) (source : Traversal α)
  | chain (left right : Traversal α)
  /-- The next pull is from the side whose turn it is. -/
  | merge (rule : Rule α) (turn : Side) (m : Memory α) (next other : Traversal α)

/-- The traversal of a plan. -/
def Plan.traversal [BEq α] : Plan α → Mode → (payload : List α) → Traversal α
  | .select c, mode, payload => .select c mode payload
  | .intersection a b, .strict, _ =>
    .intersection [] (a.traversal .strict []) (b.traversal .strict [])
  | .intersection a b, .fast, _ =>
    .merge Run.intersectionRule .left {} (a.traversal .fast []) (b.traversal .fast [])
  | .union a b, .strict, _ =>
    .keeping (fun _ => true) [] (.chain (a.traversal .strict []) (b.traversal .strict []))
  | .union a b, .fast, _ =>
    .merge Run.unionRule .left {} (a.traversal .fast []) (b.traversal .fast [])
  | .nested query filter handler, _, _ => .nested query filter handler
  | .aggregate a source, mode, _ => .aggregate a [] (source.traversal mode [])
  | .nothing, _, _ => .elements []

/-- The traversal of a payload by a query. -/
def Query.traversal [BEq α] (q : Query α) (payload : List α) : Traversal α :=
  match q.activePlan? with
  | some plan => plan.traversal q.mode payload
  | none => .elements (if q.returnsPayload then payload else [])

namespace Run

/-- Settles one slot of a side. -/
def settleSlot (rule : Rule α) (side : Side) (m : Memory α) : Option α → Option α × Memory α
  | none => (none, m)
  | some e => (if (rule side e m).1 then some e else none, (rule side e m).2)

end Run

open Run (settleSlot)

section Pulls

variable [BEq α]

/-- One pull from a traversal makes these calls, gives a slot unless the
traversal has ended, and leaves another traversal. -/
inductive Pulls : Traversal α → List (Call α) → Option (Option α) → Traversal α → Prop where
  | ended : Pulls (.elements []) [] none (.elements [])
  | element {e : α} {es : List α} : Pulls (.elements (e :: es)) [] (some (some e)) (.elements es)
  | selected {c : Condition α} {mode : Mode} :
      Pulls (.select c mode []) [] none (.select c mode [])
  | met {c : Condition α} {mode : Mode} {e : α} {es : List α} (h : (c.holds e).value = true) :
      Pulls (.select c mode (e :: es)) (c.holds e).notes (some (some e)) (.select c mode es)
  | unmet {c : Condition α} {e : α} {es : List α} (h : (c.holds e).value = false) :
      Pulls (.select c .fast (e :: es)) (c.holds e).notes (some none) (.select c .fast es)
  | skipped {c : Condition α} {e : α} {es : List α} {calls : List (Call α)}
      {out : Option (Option α)} {s : Traversal α} (h : (c.holds e).value = false)
      (next : Pulls (.select c .strict es) calls out s) :
      Pulls (.select c .strict (e :: es)) ((c.holds e).notes ++ calls) out s
  | nested {query filter : String} {handler : String → String → List α} {calls : List (Call α)}
      {out : Option (Option α)} {s : Traversal α}
      (next : Pulls (.elements (handler query filter)) calls out s) :
      Pulls (.nested query filter handler) (.nested query filter :: calls) out s
  | collected {a : Aggregator α} {es : List α} {source source' s : Traversal α}
      {calls calls' : List (Call α)} {slot : Option α} {out : Option (Option α)}
      (h : Pulls source calls (some slot) source')
      (next : Pulls (.aggregate a (es ++ slot.toList) source') calls' out s) :
      Pulls (.aggregate a es source) (calls ++ calls') out s
  | reduced {a : Aggregator α} {es : List α} {source source' s : Traversal α}
      {calls calls' : List (Call α)} {out : Option (Option α)}
      (h : Pulls source calls none source') (next : Pulls (.elements (a.reduce es)) calls' out s) :
      Pulls (.aggregate a es source) (calls ++ .aggregate a.label es.length :: calls') out s
  | gathered {es : List α} {left right right' s : Traversal α} {calls calls' : List (Call α)}
      {slot : Option α} {out : Option (Option α)} (h : Pulls right calls (some slot) right')
      (next : Pulls (.intersection (es ++ slot.toList) left right') calls' out s) :
      Pulls (.intersection es left right) (calls ++ calls') out s
  | intersected {es : List α} {left right right' s : Traversal α} {calls calls' : List (Call α)}
      {out : Option (Option α)} (h : Pulls right calls none right')
      (next : Pulls (.keeping es.contains [] left) calls' out s) :
      Pulls (.intersection es left right) (calls ++ calls') out s
  | kept {accepts : α → Bool} {emitted : List α} {source source' : Traversal α}
      {calls : List (Call α)} {e : α} (h : Pulls source calls (some (some e)) source')
      (hkept : (accepts e && !emitted.contains e) = true) :
      Pulls (.keeping accepts emitted source) calls (some (some e))
        (.keeping accepts (e :: emitted) source')
  | dropped {accepts : α → Bool} {emitted : List α} {source source' s : Traversal α}
      {calls calls' : List (Call α)} {slot : Option α} {out : Option (Option α)}
      (h : Pulls source calls (some slot) source')
      (hdropped : ∀ e, slot = some e → (accepts e && !emitted.contains e) = false)
      (next : Pulls (.keeping accepts emitted source') calls' out s) :
      Pulls (.keeping accepts emitted source) (calls ++ calls') out s
  | exhausted {accepts : α → Bool} {emitted : List α} {source source' : Traversal α}
      {calls : List (Call α)} (h : Pulls source calls none source') :
      Pulls (.keeping accepts emitted source) calls none (.keeping accepts emitted source')
  | left {left left' right : Traversal α} {calls : List (Call α)} {slot : Option α}
      (h : Pulls left calls (some slot) left') :
      Pulls (.chain left right) calls (some slot) (.chain left' right)
  | right {left left' right right' : Traversal α} {calls calls' : List (Call α)}
      {out : Option (Option α)} (h : Pulls left calls none left')
      (next : Pulls right calls' out right') :
      Pulls (.chain left right) (calls ++ calls') out (.chain (.elements []) right')
  | turn {rule : Rule α} {turn : Side} {m : Memory α} {next next' other : Traversal α}
      {calls : List (Call α)} {slot : Option α} (h : Pulls next calls (some slot) next') :
      Pulls (.merge rule turn m next other) calls (some (settleSlot rule turn m slot).1)
        (.merge rule turn.other (settleSlot rule turn m slot).2 other next')
  | otherTurn {rule : Rule α} {turn : Side} {m : Memory α} {next next' other other' : Traversal α}
      {calls calls' : List (Call α)} {slot : Option α} (h : Pulls next calls none next')
      (hother : Pulls other calls' (some slot) other') :
      Pulls (.merge rule turn m next other) (calls ++ calls')
        (some (settleSlot rule turn.other m slot).1)
        (.merge rule turn (settleSlot rule turn.other m slot).2 (.elements []) other')
  | noTurn {rule : Rule α} {turn : Side} {m : Memory α} {next next' other other' : Traversal α}
      {calls calls' : List (Call α)} (h : Pulls next calls none next')
      (hother : Pulls other calls' none other') :
      Pulls (.merge rule turn m next other) (calls ++ calls') none
        (.merge rule turn m (.elements []) (.elements []))

/-- Some pulls from a traversal, one after the other, make these calls and give
these slots. -/
inductive Pulled : Nat → Traversal α → List (Call α) → List (Option α) → Traversal α → Prop where
  | zero (s : Traversal α) : Pulled 0 s [] [] s
  | succ {n : Nat} {s t u : Traversal α} {calls calls' : List (Call α)}
      {out : Option (Option α)} {slots : List (Option α)} (h : Pulls s calls out t)
      (rest : Pulled n t calls' slots u) :
      Pulled (n + 1) s (calls ++ calls') (out.toList ++ slots) u

end Pulls

section Ends

variable [BEq α]

/-- Pulled from often enough, the traversal ends. -/
inductive Ends : Traversal α → Prop where
  | now {s t : Traversal α} {calls : List (Call α)} (h : Pulls s calls none t) : Ends s
  | later {s t : Traversal α} {calls : List (Call α)} {slot : Option α}
      (h : Pulls s calls (some slot) t) (rest : Ends t) : Ends s

namespace Ends

variable {s t source left right next other : Traversal α} {calls : List (Call α)}

/-- What pulls on from an ending traversal ends. -/
theorem of_pulls (ht : Ends t)
    (h : ∀ calls' out u, Pulls t calls' out u → ∃ calls, Pulls s calls out u) : Ends s := by
  cases ht with
  | now hnow =>
      obtain ⟨_, hs⟩ := h _ _ _ hnow
      exact .now hs
  | later hlater rest =>
      obtain ⟨_, hs⟩ := h _ _ _ hlater
      exact .later hs rest

/-- A list of elements comes to an end. -/
theorem elements (es : List α) : Ends (.elements es) := by
  induction es with
  | nil => exact .now .ended
  | cons e es ih => exact .later .element ih

/-- A selection comes to an end. -/
theorem select (c : Condition α) (mode : Mode) (payload : List α) :
    Ends (.select c mode payload) := by
  induction payload with
  | nil => exact .now .selected
  | cons e es ih =>
      cases hc : (c.holds e).value with
      | true => exact .later (.met hc) ih
      | false =>
          cases mode with
          | strict => exact ih.of_pulls fun _ _ _ hnext => ⟨_, .skipped hc hnext⟩
          | fast => exact .later (.unmet hc) ih

/-- A nested query comes to an end. -/
theorem nested (query filter : String) (handler : String → String → List α) :
    Ends (.nested query filter handler) :=
  (elements (handler query filter)).of_pulls fun _ _ _ hnext => ⟨_, .nested hnext⟩

/-- An aggregator comes to an end if its source does. -/
theorem aggregate (a : Aggregator α) (h : Ends source) (es : List α) :
    Ends (.aggregate a es source) := by
  induction h generalizing es with
  | now h => exact (elements _).of_pulls fun _ _ _ hnext => ⟨_, .reduced h hnext⟩
  | later h _ ih => exact (ih _).of_pulls fun _ _ _ hnext => ⟨_, .collected h hnext⟩

/-- Leaving out elements comes to an end if the source does. -/
theorem keeping (accepts : α → Bool) (h : Ends source) (emitted : List α) :
    Ends (.keeping accepts emitted source) := by
  induction h generalizing emitted with
  | now h => exact .now (.exhausted h)
  | @later _ _ _ slot h _ ih =>
      by_cases hdropped : ∀ e, slot = some e → (accepts e && !emitted.contains e) = false
      · exact (ih emitted).of_pulls fun _ _ _ hnext => ⟨_, .dropped h hdropped hnext⟩
      · push Not at hdropped
        obtain ⟨e, rfl, hkept⟩ := hdropped
        exact .later (.kept h (by simpa using hkept)) (ih _)

/-- An intersection comes to an end if both sides do. -/
theorem intersection (hleft : Ends left) (hright : Ends right) (es : List α) :
    Ends (.intersection es left right) := by
  induction hright generalizing es with
  | now h => exact (hleft.keeping _ []).of_pulls fun _ _ _ hnext => ⟨_, .intersected h hnext⟩
  | later h _ ih => exact (ih _).of_pulls fun _ _ _ hnext => ⟨_, .gathered h hnext⟩

/-- Behind an ended side the traversal ends with the other one. -/
theorem chain_of_ended {left' : Traversal α} (hleft : Pulls left calls none left')
    (hright : Ends right) : Ends (.chain left right) := by
  induction hright generalizing left left' calls with
  | now h => exact .now (.right hleft h)
  | later h _ ih => exact .later (.right hleft h) (ih .ended)

/-- One traversal behind another comes to an end if both do. -/
theorem chain (hleft : Ends left) (hright : Ends right) : Ends (.chain left right) := by
  induction hleft with
  | now h => exact chain_of_ended h hright
  | later h _ ih => exact .later (.left h) ih

variable {rule : Rule α}

/-- Once one side has ended, the other one alone is left to be pulled from, on
its turn or not. -/
theorem merge_of_ended {next' : Traversal α} (hnext : Pulls next calls none next')
    (hother : Ends other) (turn : Side) (m : Memory α) :
    Ends (.merge rule turn m next other) ∧ Ends (.merge rule turn m other next) := by
  induction hother generalizing next next' calls turn m with
  | now h => exact ⟨.now (.noTurn hnext h), .now (.noTurn h hnext)⟩
  | later h _ ih =>
      exact ⟨.later (.otherTurn hnext h) (ih .ended _ _).1, .later (.turn h) (ih hnext _ _).1⟩

/-- The induction is on both sides at once, since their slots are pulled in
turn. -/
theorem merge (hnext : Ends next) (hother : Ends other) (turn : Side) (m : Memory α) :
    Ends (.merge rule turn m next other) ∧ Ends (.merge rule turn m other next) := by
  induction hnext generalizing other turn m with
  | now h => exact merge_of_ended h hother turn m
  | @later next next' _ _ h hrest ih =>
      induction hother generalizing turn m with
      | now h' => exact (merge_of_ended h' (.later h hrest) turn m).symm
      | later h' hrest' ih' =>
          exact ⟨.later (.turn h) (ih (.later h' hrest') _ _).2,
            .later (.turn h') (ih' _ _).1⟩

/-- **Every traversal ends.** -/
theorem all (s : Traversal α) : Ends s := by
  induction s with
  | elements es => exact elements es
  | select c mode payload => exact select c mode payload
  | nested query filter handler => exact nested query filter handler
  | aggregate a es source ih => exact ih.aggregate a es
  | intersection es left right ihl ihr => exact ihl.intersection ihr es
  | keeping accepts emitted source ih => exact ih.keeping accepts emitted
  | chain left right ihl ihr => exact ihl.chain ihr
  | merge rule turn m next other ihn iho => exact (ihn.merge iho turn m).1

end Ends

/-- **Every pull comes to an end.** -/
theorem exists_pulls (s : Traversal α) : ∃ calls out t, Pulls s calls out t := by
  cases Ends.all s with
  | now h => exact ⟨_, _, _, h⟩
  | later h _ => exact ⟨_, _, _, h⟩

/-- However often a traversal is pulled, something comes of it. -/
theorem exists_pulled (n : Nat) (s : Traversal α) : ∃ calls slots t, Pulled n s calls slots t := by
  induction n generalizing s with
  | zero => exact ⟨_, _, _, .zero s⟩
  | succ n ih =>
      obtain ⟨_, _, t, h⟩ := exists_pulls s
      obtain ⟨_, _, _, hrest⟩ := ih t
      exact ⟨_, _, _, .succ h hrest⟩

end Ends

namespace Run

variable (calls : List (Call α)) (r s : Run α)

@[simp] theorem calls_call (c : Call α) : Run.calls (.call c :: r) = c :: r.calls := rfl

/-- Runs one after the other make their calls one after the other. -/
@[simp] theorem calls_append : Run.calls (r ++ s) = r.calls ++ s.calls := List.filterMap_append

@[simp] theorem calls_ofCalls : (ofCalls calls).calls = calls := by
  induction calls with
  | nil => rfl
  | cons c calls ih => exact congrArg (c :: ·) ih

@[simp] theorem calls_ofElements (es : List α) : (ofElements es).calls = [] := by
  induction es with
  | nil => rfl
  | cons e es ih => exact ih

/-- Calls in front do not matter to what is left out. -/
theorem keepFirst_ofCalls [BEq α] (p : α → Bool) (seen : List α) :
    keepFirst p seen (ofCalls calls ++ r) = ofCalls calls ++ keepFirst p seen r := by
  induction calls with
  | nil => rfl
  | cons c calls ih => exact congrArg (.call c :: ·) ih

/-- Calls in front of a search are made before those of the search. -/
theorem search_ofCalls (p : α → Noted (Call α) Bool) :
    ((ofCalls calls ++ r).search p).notes = calls ++ (r.search p).notes := by
  induction calls with
  | nil => rfl
  | cons c calls ih => exact congrArg (c :: ·) ih

/-- Calls without an element are one pull. -/
theorem pulls_ofCalls : pulls (ofCalls calls) = [ofCalls calls] := by
  induction calls with
  | nil => rfl
  | cons c calls ih =>
      have hcons : pulls (ofCalls (c :: calls)) = [.call c :: ofCalls calls] := by
        rw [show ofCalls (c :: calls) = .call c :: ofCalls calls from rfl, pulls, ih]
      exact hcons

/-- Each pull ends with an element or a gap. -/
theorem pulls_slot (slot : Option α) :
    pulls (ofCalls calls ++ .slot slot :: r) = (ofCalls calls ++ [.slot slot]) :: pulls r := by
  induction calls with
  | nil => rfl
  | cons c calls ih =>
      rw [show ofCalls (c :: calls) = .call c :: ofCalls calls from rfl, List.cons_append, pulls,
        ih, List.cons_append]

/-- The run of one pull. -/
def ofPull (out : Option (Option α)) : Run α :=
  ofCalls calls ++ (out.map Event.slot).toList

/-- The calls of a pull may be made in two parts. -/
theorem ofPull_append (calls' : List (Call α)) (out : Option (Option α)) :
    ofPull (calls ++ calls') out = ofCalls calls ++ ofPull calls' out := by
  rw [ofPull, ofPull, ← List.append_assoc, ofCalls, List.map_append]
  rfl

/-- A pull that yields ends with what it yields. -/
theorem ofPull_some (slot : Option α) :
    ofPull calls (some slot) ++ r = ofCalls calls ++ .slot slot :: r := by
  rw [ofPull, List.append_assoc]
  rfl

/-- A pull makes its calls. -/
theorem calls_ofPull (out : Option (Option α)) : (ofPull calls out).calls = calls := by
  rw [ofPull, calls_append, calls_ofCalls]
  cases out <;> exact List.append_nil calls

/-- A pull yields one thing at most. -/
theorem slots_ofPull (out : Option (Option α)) : (ofPull calls out).slots = out.toList := by
  rw [ofPull, slots_append, slots_ofCalls]
  cases out <;> rfl

/-- A pull that yields nothing only makes its calls. -/
theorem ofPull_none : ofPull calls none ++ r = ofCalls calls ++ r := by
  rw [ofPull, Option.map_none, Option.toList_none, List.append_nil]

/-- What collecting one slot leaves to collect. -/
theorem collect {r r' : Run α} {calls : List (Call α)} {slot : Option α}
    (h : r = ofPull calls (some slot) ++ r') (es : List α) :
    ofCalls r.calls = ofCalls calls ++ ofCalls r'.calls ∧
      es ++ r.elements = es ++ slot.toList ++ r'.elements := by
  rw [ofPull_some] at h
  have helements : r.elements = slot.toList ++ r'.elements := by
    rw [h, elements_append, elements_eq, slots_ofCalls]
    cases slot with
    | none => rfl
    | some e => rfl
  refine ⟨?_, by rw [helements, List.append_assoc]⟩
  rw [h, calls_append, calls_ofCalls, ofCalls, List.map_append]
  rfl

/-- Nothing is left to collect at the end. -/
theorem collect_end {r : Run α} {calls : List (Call α)} (h : r = ofPull calls none)
    (es : List α) : r.calls = calls ∧ es ++ r.elements = es := by
  have hr : r = ofCalls calls := by
    rw [h, ← List.append_nil (ofPull calls none), ofPull_none, List.append_nil]
  refine ⟨by rw [hr, calls_ofCalls], ?_⟩
  rw [hr, elements_eq, slots_ofCalls]
  exact List.append_nil _

variable (rule : Rule α) (side : Side) (m : Memory α)

/-- Calls in front of what is merged are made first. -/
theorem settle_ofCalls :
    settle rule side m (ofCalls calls ++ r) =
      (ofCalls calls ++ (settle rule side m r).1, (settle rule side m r).2) := by
  induction calls with
  | nil => rfl
  | cons c calls ih =>
      have hcons : settle rule side m (.call c :: (ofCalls calls ++ r)) =
          (.call c :: (settle rule side m (ofCalls calls ++ r)).1,
            (settle rule side m (ofCalls calls ++ r)).2) := rfl
      rw [show ofCalls (c :: calls) = .call c :: ofCalls calls from rfl, List.cons_append, hcons,
        ih, List.cons_append]

/-- Of a slot only the slot is changed. -/
theorem settle_slot (slot : Option α) :
    settle rule side m [.slot slot] =
      ([.slot (settleSlot rule side m slot).1], (settleSlot rule side m slot).2) := by
  cases slot with
  | none => rfl
  | some e => rfl

variable (pieces : List (Side × Run α))

/-- Pieces are settled one after the other, with what is remembered. -/
theorem settleAll_cons (piece : Run α) :
    settleAll rule m ((side, piece) :: pieces) = (settle rule side m piece).1 ++
      settleAll rule (settle rule side m piece).2 pieces := rfl

/-- A piece of calls alone changes nothing that is remembered. -/
theorem settleAll_ofCalls :
    settleAll rule m ((side, ofCalls calls) :: pieces) =
      ofCalls calls ++ settleAll rule m pieces := by
  have hsettle := settle_ofCalls calls [] rule side m
  rw [List.append_nil] at hsettle
  rw [settleAll_cons, hsettle, settle, List.append_nil]

/-- A piece that ends with a slot is settled there. -/
theorem settleAll_slot (slot : Option α) :
    settleAll rule m ((side, ofCalls calls ++ [.slot slot]) :: pieces) =
      ofCalls calls ++ .slot (settleSlot rule side m slot).1 ::
        settleAll rule (settleSlot rule side m slot).2 pieces := by
  rw [settleAll_cons, settle_ofCalls, settle_slot, List.append_assoc, List.singleton_append]

/-- The pieces of two runs in turn, the first run that of the given side; what
is left of the longer one follows. -/
def alternateFrom (side : Side) : List (Run α) → List (Run α) → List (Side × Run α)
  | [], qs => qs.map (side.other, ·)
  | p :: ps, qs => (side, p) :: alternateFrom side.other qs ps
termination_by ps qs => ps.length + qs.length

@[simp] theorem Side.other_other : side.other.other = side := by cases side <;> rfl

/-- If one side has ended, the other goes on alone. -/
theorem alternateFrom_nil (ps : List (Run α)) :
    alternateFrom side ps [] = ps.map (side, ·) := by
  cases ps with
  | nil => rw [alternateFrom]; rfl
  | cons p ps => rw [alternateFrom, alternateFrom, Side.other_other, List.map_cons]

/-- Two sides are pulled in turns, the left one first. -/
theorem alternate_eq (ps qs : List (Run α)) : alternate ps qs = alternateFrom .left ps qs := by
  induction ps generalizing qs with
  | nil =>
      rw [alternateFrom]
      cases qs <;> rfl
  | cons p ps ih =>
      cases qs with
      | nil => rw [alternateFrom_nil, alternate]
      | cons q qs => rw [alternate, ih, alternateFrom, alternateFrom]; rfl

end Run

section Rest

variable [BEq α]

/-- The run that a traversal is going to pull. -/
def Traversal.rest : Traversal α → Run α
  | .elements es => ofElements es
  | .select c mode payload => (Plan.select c).run mode payload
  | .nested query filter handler =>
    .call (.nested query filter) :: ofElements (handler query filter)
  | .aggregate a es source =>
    ofCalls source.rest.calls ++
      .call (.aggregate a.label (es ++ source.rest.elements).length) ::
        ofElements (a.reduce (es ++ source.rest.elements))
  | .intersection es left right =>
    ofCalls right.rest.calls ++ Run.keepFirst (es ++ right.rest.elements).contains [] left.rest
  | .keeping accepts emitted source => Run.keepFirst accepts emitted source.rest
  | .chain left right => left.rest ++ right.rest
  | .merge rule turn m next other =>
    Run.settleAll rule m (Run.alternateFrom turn (Run.pulls next.rest) (Run.pulls other.rest))

/-- **The traversal of a plan is going to pull its run.** -/
theorem Plan.rest_traversal (p : Plan α) (mode : Mode) (payload : List α) :
    (p.traversal mode payload).rest = p.run mode payload := by
  cases p with
  | select c => rfl
  | intersection a b =>
      cases mode with
      | strict =>
          rw [traversal, Traversal.rest, a.rest_traversal, b.rest_traversal, run, Run.intersection,
            List.nil_append]
      | fast =>
          rw [traversal, Traversal.rest, a.rest_traversal, b.rest_traversal, run, Run.merge,
            Run.alternate_eq]
  | union a b =>
      cases mode with
      | strict =>
          rw [traversal, Traversal.rest, Traversal.rest, a.rest_traversal, b.rest_traversal, run,
            Run.union]
      | fast =>
          rw [traversal, Traversal.rest, a.rest_traversal, b.rest_traversal, run, Run.merge,
            Run.alternate_eq]
  | nested query filter handler => rw [traversal, Traversal.rest, run]
  | aggregate a source =>
      rw [traversal, Traversal.rest, source.rest_traversal, run, List.nil_append]
  | nothing => rw [traversal, Traversal.rest, run]; rfl

/-- What is left of a new traversal is the whole run. -/
theorem Query.rest_traversal (q : Query α) (payload : List α) :
    (q.traversal payload).rest = q.aligned payload := by
  unfold traversal aligned
  cases q.activePlan? with
  | some plan => exact plan.rest_traversal q.mode payload
  | none =>
      dsimp only
      rw [Traversal.rest]
      cases q.returnsPayload <;> rfl

/-- A selection asks about one element, and then goes on with the others. -/
theorem rest_select_cons (c : Condition α) (mode : Mode) (e : α) (es : List α) :
    (Traversal.select c mode (e :: es)).rest = ofCalls (c.holds e).notes ++
      ((if (c.holds e).value then [.slot (some e)] else if mode = .strict then []
        else [.slot none]) ++ (Traversal.select c mode es).rest) := by
  rw [Traversal.rest, Traversal.rest, Plan.run, Plan.run, List.flatMap_cons, List.append_assoc]
  dsimp only
  cases (c.holds e).value <;> cases mode <;> rfl

/-- A fast operation with an ended side pulls what the other side pulls. -/
theorem rest_merge_ended (rule : Rule α) (turn : Side) (m : Memory α) (other : Traversal α) :
    (Traversal.merge rule turn m (.elements []) other).rest =
      Run.settleAll rule m ((Run.pulls other.rest).map (turn.other, ·)) := by
  have hnothing : Run.pulls (ofElements ([] : List α)) = [ofCalls []] := rfl
  rw [Traversal.rest, Traversal.rest, hnothing, Run.alternateFrom, Run.alternateFrom_nil,
    Run.settleAll_ofCalls]
  rfl

/-- **A pull takes its calls and its slot off the front of the run.**  An ended
traversal has nothing left: pulled from again, it makes no call. -/
theorem Pulls.rest {s t : Traversal α} {calls : List (Call α)} {out : Option (Option α)}
    (h : Pulls s calls out t) :
    s.rest = Run.ofPull calls out ++ t.rest ∧ (out = none → t.rest = []) := by
  induction h with
  | ended => exact ⟨rfl, fun _ => rfl⟩
  | element => exact ⟨rfl, fun hnone => by cases hnone⟩
  | selected => exact ⟨rfl, fun _ => rfl⟩
  | met h =>
      refine ⟨?_, fun hnone => by cases hnone⟩
      rw [rest_select_cons, if_pos h, Run.ofPull_some]
      rfl
  | unmet h =>
      refine ⟨?_, fun hnone => by cases hnone⟩
      rw [rest_select_cons, h, Run.ofPull_some]
      rfl
  | skipped h _ ih =>
      refine ⟨?_, ih.2⟩
      rw [Run.ofPull_append, List.append_assoc, ← ih.1, rest_select_cons, h]
      rfl
  | nested _ ih => exact ⟨congrArg (_ :: ·) ih.1, ih.2⟩
  | @collected a es _ _ _ _ _ _ _ _ _ ih ih' =>
      refine ⟨?_, ih'.2⟩
      obtain ⟨hcalls, helements⟩ := Run.collect ih.1 es
      rw [Run.ofPull_append, List.append_assoc, ← ih'.1, Traversal.rest, hcalls, helements,
        Traversal.rest, List.append_assoc]
  | @reduced a es _ _ _ _ calls' out _ _ ih ih' =>
      refine ⟨?_, ih'.2⟩
      rw [ih.2 rfl, List.append_nil] at ih
      obtain ⟨hcalls, helements⟩ := Run.collect_end ih.1 es
      rw [Run.ofPull_append, List.append_assoc, Traversal.rest, hcalls, helements]
      exact congrArg (fun r => ofCalls _ ++ .call (.aggregate a.label es.length) :: r) ih'.1
  | @gathered es _ _ _ _ _ _ _ _ _ _ ih ih' =>
      refine ⟨?_, ih'.2⟩
      obtain ⟨hcalls, helements⟩ := Run.collect ih.1 es
      rw [Run.ofPull_append, List.append_assoc, ← ih'.1, Traversal.rest, hcalls, helements,
        Traversal.rest, List.append_assoc]
  | @intersected es _ _ _ _ _ _ _ _ _ ih ih' =>
      refine ⟨?_, ih'.2⟩
      rw [ih.2 rfl, List.append_nil] at ih
      obtain ⟨hcalls, helements⟩ := Run.collect_end ih.1 es
      rw [Run.ofPull_append, List.append_assoc, ← ih'.1, Traversal.rest, hcalls, helements,
        Traversal.rest]
  | @kept accepts emitted _ _ _ e _ hkept ih =>
      refine ⟨?_, fun hnone => by cases hnone⟩
      rw [Traversal.rest, ih.1, Run.ofPull_some, Run.ofPull_some, Run.keepFirst_ofCalls,
        Run.keepFirst, if_pos hkept, Traversal.rest]
  | @dropped accepts emitted _ source' _ calls _ slot _ _ hdropped _ ih ih' =>
      refine ⟨?_, ih'.2⟩
      have hskip : Run.keepFirst accepts emitted (.slot slot :: source'.rest) =
          Run.keepFirst accepts emitted source'.rest := by
        cases slot with
        | none => rfl
        | some e => rw [Run.keepFirst, if_neg (by rw [hdropped e rfl]; exact Bool.false_ne_true)]
      rw [Run.ofPull_append, List.append_assoc, ← ih'.1, Traversal.rest, ih.1, Run.ofPull_some,
        Run.keepFirst_ofCalls, hskip, Traversal.rest]
  | @exhausted accepts emitted _ _ _ _ ih =>
      have hrest := ih.2 rfl
      refine ⟨?_, fun _ => by rw [Traversal.rest, hrest, Run.keepFirst]⟩
      rw [Traversal.rest, ih.1, Run.ofPull_none, Run.ofPull_none, Run.keepFirst_ofCalls,
        Traversal.rest]
  | left _ ih =>
      refine ⟨?_, fun hnone => by cases hnone⟩
      rw [Traversal.rest, ih.1, List.append_assoc, Traversal.rest]
  | right _ _ ih ih' =>
      refine ⟨?_, ih'.2⟩
      rw [Traversal.rest, ih.1, ih.2 rfl, ih'.1, Run.ofPull_none, Run.ofPull_append,
        List.append_nil, List.append_assoc]
      rfl
  | turn _ ih =>
      refine ⟨?_, fun hnone => by cases hnone⟩
      rw [Traversal.rest, ih.1, Run.ofPull_some, Run.pulls_slot, Run.alternateFrom,
        Run.settleAll_slot, Run.ofPull_some, Traversal.rest]
  | otherTurn _ _ ih ih' =>
      refine ⟨?_, fun hnone => by cases hnone⟩
      rw [Traversal.rest, ih.1, ih.2 rfl, Run.ofPull_none, List.append_nil, Run.pulls_ofCalls,
        Run.alternateFrom, Run.settleAll_ofCalls, Run.alternateFrom_nil, ih'.1, Run.ofPull_some,
        Run.pulls_slot, List.map_cons, Run.settleAll_slot, Run.ofPull_append, List.append_assoc,
        Run.ofPull_some, rest_merge_ended]
  | noTurn _ _ ih ih' =>
      refine ⟨?_, fun _ => by rw [rest_merge_ended]; rfl⟩
      rw [Traversal.rest, ih.1, ih.2 rfl, Run.ofPull_none, List.append_nil, Run.pulls_ofCalls,
        Run.alternateFrom, Run.settleAll_ofCalls, Run.alternateFrom_nil, ih'.1, ih'.2 rfl,
        Run.ofPull_none, List.append_nil, Run.pulls_ofCalls, List.map_singleton,
        Run.settleAll_ofCalls, Run.ofPull_append, List.append_assoc, Run.ofPull_none,
        rest_merge_ended]
      rfl

variable {s t : Traversal α} {calls : List (Call α)} {slots : List (Option α)} {n : Nat}

/-- An ended traversal stays ended. -/
theorem Pulls.of_ended {out : Option (Option α)} (h : Pulls s calls out t) (hs : s.rest = []) :
    calls = [] ∧ out = none ∧ t.rest = [] := by
  obtain ⟨hpull, hrest⟩ := List.append_eq_nil_iff.mp (h.rest.1.symm.trans hs)
  obtain ⟨hcalls, hout⟩ := List.append_eq_nil_iff.mp hpull
  refine ⟨List.map_eq_nil_iff.mp hcalls, ?_, hrest⟩
  simpa using hout

/-- **Pulls take their calls and slots off the front of the run**, and all of
them as soon as one pull gives no slot. -/
theorem Pulled.rest (h : Pulled n s calls slots t) :
    s.rest.calls = calls ++ t.rest.calls ∧ s.rest.slots = slots ++ t.rest.slots ∧
      (slots.length < n ∨ s.rest = [] → t.rest = []) := by
  induction h with
  | zero s => exact ⟨rfl, rfl, fun h => h.resolve_left (Nat.not_lt_zero _)⟩
  | @succ n s t u calls calls' out slots h _ ih =>
      obtain ⟨hrest, hended⟩ := h.rest
      obtain ⟨hcalls, hslots, hall⟩ := ih
      refine ⟨?_, ?_, fun hless => hall ?_⟩
      · rw [hrest, Run.calls_append, hcalls, List.append_assoc, Run.calls_ofPull]
      · rw [hrest, Run.slots_append, hslots, List.append_assoc, Run.slots_ofPull]
      · rcases hless with hless | hs
        · cases out with
          | none => exact .inr (hended rfl)
          | some slot =>
              rw [Option.toList_some, List.singleton_append, List.length_cons] at hless
              exact .inl (by omega)
        · exact .inr (h.of_ended hs).2.2

/-- Pulls to the end make the calls of the run and give its slots. -/
theorem Pulled.exhausted (h : Pulled n s calls slots t) (hless : slots.length < n) :
    calls = s.rest.calls ∧ slots = s.rest.slots := by
  obtain ⟨hcalls, hslots, hall⟩ := h.rest
  rw [hall (.inl hless)] at hcalls hslots
  exact ⟨by simpa [Run.calls] using hcalls.symm, by simpa [Run.slots] using hslots.symm⟩

/-- One pull more than there are slots comes to the end. -/
theorem Pulled.exhausts (h : Pulled n s calls slots t) (hn : s.rest.slots.length < n) :
    slots.length < n := by
  have hslots := congrArg List.length h.rest.2.1
  rw [List.length_append] at hslots
  omega

/-- **A search stops at what it finds.**  Its calls are those of some pulls. -/
theorem exists_pulled_search (p : α → Bool) (s : Traversal α) :
    ∃ n slots t, Pulled n s (s.rest.search fun e => pure (p e)).notes slots t := by
  induction Ends.all s with
  | @now s t calls h =>
      have hnotes : (s.rest.search fun e => pure (p e)).notes = calls ++ [] := by
        rw [h.rest.1, h.rest.2 rfl, Run.ofPull_none, Run.search_ofCalls]
        rfl
      rw [hnotes]
      exact ⟨1, _, t, .succ h (.zero t)⟩
  | @later s t calls slot h _ ih =>
      have hnotes : (s.rest.search fun e => pure (p e)).notes =
          calls ++ (Run.search (fun e => pure (p e)) (.slot slot :: t.rest)).notes := by
        rw [h.rest.1, Run.ofPull_some, Run.search_ofCalls]
      have hfound : (Run.search (fun e => pure (p e)) (.slot slot :: t.rest)).notes = [] ∨
          (Run.search (fun e => pure (p e)) (.slot slot :: t.rest)).notes =
            (t.rest.search fun e => pure (p e)).notes := by
        cases slot with
        | none => exact .inr rfl
        | some e =>
            rw [Run.search]
            cases hp : p e with
            | true => exact .inl (by simp)
            | false => exact .inr (by simp)
      rcases hfound with hfound | hfound
      · rw [hnotes, hfound]
        exact ⟨1, _, t, .succ h (.zero t)⟩
      · obtain ⟨n, slots, u, hpulled⟩ := ih
        rw [hnotes, hfound]
        exact ⟨n + 1, _, u, .succ h hpulled⟩

end Rest

end FilterQuery
