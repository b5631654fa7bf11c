import FilterQuery.Noted
import FilterQuery.Value
import FilterQuery.Operator

/-!
# Runs

Evaluating a query is described by its run: the calls it makes to functions of
the embedding program and the slots it yields, in the order in which a consumer
who pulls all slots sees them.  A consumer who stops after some slots sees the
run up to the last of these, and nothing behind it.

A slot holds an element, or stands empty for one that is not in the result.
Empty slots occur only in fast evaluation, which yields one slot for each
element it looks at; strict evaluation yields the result as a set in order.
-/

namespace FilterQuery

/-- How set operations and selections treat what is not in the result. -/
inductive Mode where
  /-- It is dropped, and repetitions with it. -/
  | strict
  /-- It leaves an empty slot. -/
  | fast
  deriving DecidableEq, Inhabited, Repr

/-- A call to a function of the embedding program. -/
inductive Call (α : Type) where
  /-- A filter reads a value. -/
  | read (label : String) (element : α)
  /-- A filter decides. -/
  | decide (name : String) (param : Option Value) (operator : String) (value : Value) (element : α)
  /-- A handler compares two values. -/
  | compare (label : Option String) (lhs rhs : Value) (comparison : StringComparison)
  /-- The texts of an element are taken. -/
  | search (element : α)
  /-- A word is matched with a text. -/
  | matchWord (word text : String)
  /-- A nested query is resolved. -/
  | nested (query filter : String)
  /-- A number of elements is reduced. -/
  | aggregate (label : Option String) (count : Nat)
  /-- A filter that is not registered is decided about. -/
  | default (name operator value : String) (element : α)
  deriving Inhabited, Repr

/-- What happens in a run. -/
inductive Event (α : Type) where
  | call (c : Call α)
  | slot (e : Option α)
  deriving Inhabited, Repr

/-- All that happens when every slot is pulled. -/
abbrev Run (α : Type) := List (Event α)

namespace Run

variable {α : Type}

/-- The calls that were noted, as a run without slots. -/
def ofCalls (calls : List (Call α)) : Run α := calls.map .call

/-- A slot for each element. -/
def ofElements (elements : List α) : Run α := elements.map fun e => .slot (some e)

def calls (r : Run α) : List (Call α) :=
  r.filterMap fun
    | .call c => some c
    | .slot _ => none

def slots (r : Run α) : List (Option α) :=
  r.filterMap fun
    | .call _ => none
    | .slot e => some e

/-- The elements in the slots. -/
def elements (r : Run α) : List α := r.slots.filterMap id

/-- The run without its empty slots. -/
def withoutEmpty (r : Run α) : Run α :=
  r.filter fun
    | .slot none => false
    | _ => true

/-- The run as far as a consumer of `n` slots sees it. -/
def upTo : Nat → Run α → Run α
  | 0, _ => []
  | _, [] => []
  | n + 1, .call c :: rest => .call c :: upTo (n + 1) rest
  | n + 1, .slot e :: rest => .slot e :: upTo n rest

/-- Looks for an element with a property, and stops at the first. -/
def search (p : α → Noted (Call α) Bool) : Run α → Noted (Call α) Bool
  | [] => pure false
  | .call c :: rest => do
    Noted.note c
    search p rest
  | .slot none :: rest => search p rest
  | .slot (some e) :: rest => do
    if ← p e then return true
    search p rest

variable [BEq α]

/-- Keeps the elements with a property, each at its first occurrence. -/
def keepFirst (p : α → Bool) : (seen : List α) → Run α → Run α
  | _, [] => []
  | seen, .call c :: rest => .call c :: keepFirst p seen rest
  | seen, .slot none :: rest => keepFirst p seen rest
  | seen, .slot (some e) :: rest =>
    if p e && !seen.contains e then .slot (some e) :: keepFirst p (e :: seen) rest
    else keepFirst p seen rest

/-- The elements of the left run that the right one has too.  The right run
comes first, to its end. -/
def intersection (left right : Run α) : Run α :=
  ofCalls right.calls ++ keepFirst right.elements.contains [] left

/-- The elements of the left run, and behind them those of the right one. -/
def union (left right : Run α) : Run α :=
  keepFirst (fun _ => true) [] (left ++ right)

/-- One of two operands. -/
inductive Side where
  | left
  | right
  deriving DecidableEq, Inhabited, Repr

omit [BEq α] in
/-- Cuts a run behind each slot; the last piece has none. -/
def pulls : Run α → List (Run α)
  | [] => [[]]
  | .slot e :: rest => [.slot e] :: pulls rest
  | .call c :: rest =>
    match pulls rest with
    | [] => [[.call c]]
    | piece :: pieces => (.call c :: piece) :: pieces

omit [BEq α] in
/-- The pieces of two runs in turn, the left one first; what is left of the
longer one follows. -/
def alternate : List (Run α) → List (Run α) → List (Side × Run α)
  | p :: ps, q :: qs => (.left, p) :: (.right, q) :: alternate ps qs
  | ps, [] => ps.map (.left, ·)
  | [], qs => qs.map (.right, ·)

/-- What a fast set operation remembers: the elements seen on either side, and
those yielded. -/
structure Memory (α : Type) where
  seenLeft : List α := []
  seenRight : List α := []
  yielded : List α := []

/-- Decides whether a pulled element is yielded now. -/
abbrev Rule (α : Type) := Side → α → Memory α → Bool × Memory α

/-- An element is yielded when the second side shows it, once. -/
def intersectionRule : Rule α := fun side e m =>
  let (other, m) := match side with
    | .left => (m.seenRight, { m with seenLeft := e :: m.seenLeft })
    | .right => (m.seenLeft, { m with seenRight := e :: m.seenRight })
  if other.contains e && !m.yielded.contains e then (true, { m with yielded := e :: m.yielded })
  else (false, m)

/-- An element is yielded when either side shows it, once. -/
def unionRule : Rule α := fun _ e m =>
  if m.yielded.contains e then (false, m) else (true, { m with yielded := e :: m.yielded })

omit [BEq α] in
/-- Empties the slots of a side's events whose elements are not yielded. -/
def settle (rule : Rule α) (side : Side) : Memory α → Run α → Run α × Memory α
  | m, [] => ([], m)
  | m, .slot (some e) :: rest =>
    let (kept, m) := rule side e m
    let (rest, m) := settle rule side m rest
    (.slot (if kept then some e else none) :: rest, m)
  | m, event :: rest =>
    let (rest, m) := settle rule side m rest
    (event :: rest, m)

omit [BEq α] in
def settleAll (rule : Rule α) : Memory α → List (Side × Run α) → Run α
  | _, [] => []
  | m, (side, piece) :: pieces =>
    let (piece, m) := settle rule side m piece
    piece ++ settleAll rule m pieces

omit [BEq α] in
/-- Pulls from two runs in turn, and yields a slot for each slot pulled. -/
def merge (rule : Rule α) (left right : Run α) : Run α :=
  settleAll rule {} (alternate (pulls left) (pulls right))

end Run

end FilterQuery
