import FilterQuery.Value

/-!
# Aggregators

An aggregator reduces the elements that a nested query yields.  Names of
aggregators are taken without regard to case.
-/

namespace FilterQuery

/-- A reduction of a sequence. -/
structure Aggregator (α : Type) where
  /-- The name that a trace shows; an aggregator without one leaves no trace. -/
  label : Option String := none
  reduce : List α → List α

namespace Aggregator

variable {α : Type}

/-- The first element. -/
def first : Aggregator α where
  reduce items := items.take 1

/-- The last element. -/
def last : Aggregator α where
  reduce items := items.getLast?.toList

/-- The order of two keys: of texts and of booleans among themselves, and of
numbers. -/
def compareKeys? : Value → Value → Option Ordering
  | .string a, .string b => some (Text.compareChars a.toList b.toList)
  | .boolean a, .boolean b => some (compare a b)
  | a, b => a.compareNumbers? b

/-- The better of a candidate and the best element so far: the candidate if it
has a key and stands to the best key as wanted, or if it is the first that has
one. -/
def improve (key : α → Option Value) (wanted : Ordering) (best : Option (Value × α)) (e : α) :
    Option (Value × α) :=
  match key e, best with
  | none, best => best
  | some k, none => some (k, e)
  | some k, some (k', e') =>
    if compareKeys? k k' = some wanted then some (k, e) else some (k', e')

/-- The element whose key is ahead of all others in the wanted direction, the
first of equals. -/
def extremum (key : α → Option Value) (wanted : Ordering) : Aggregator α where
  reduce items := ((items.foldl (improve key wanted) none).map (·.2)).toList

/-- The first element with the greatest key. -/
def max (key : α → Option Value) : Aggregator α := extremum key .gt

/-- The first element with the least key. -/
def min (key : α → Option Value) : Aggregator α := extremum key .lt

end Aggregator

/-- The aggregators of an engine by the lower-case form of their names. -/
structure AggregatorTable (α : Type) where
  entries : List (String × Aggregator α)

namespace AggregatorTable

variable {α : Type}

def find? (table : AggregatorTable α) (name : String) : Option (Aggregator α) :=
  table.entries.lookup (Text.lowercase name)

def contains (table : AggregatorTable α) (name : String) : Bool :=
  (table.find? name).isSome

/-- Adds an aggregator unless its name is taken. -/
def insert? (table : AggregatorTable α) (name : String) (a : Aggregator α) :
    Option (AggregatorTable α) :=
  if table.contains name then none
  else some ⟨table.entries ++ [(Text.lowercase name, a)]⟩

/-- The aggregators that every engine starts with. -/
def builtin : AggregatorTable α := ⟨[("first", .first), ("last", .last)]⟩

end AggregatorTable

end FilterQuery
