import FilterQuery.Query

/-!
# Records

Queries over JSON data: the elements are the records of an array, each known by
its place in it.  Every key that some record has becomes a filter, typed by the
values under it, and nested queries run over the same records.
-/

namespace FilterQuery

/-- A list of records. -/
abbrev Records := Array Json

namespace Records

/-- The records of an array; any other data is one record. -/
def ofJson : Json → Records
  | .array items => items.toArray
  | j => #[j]

/-- A record, by its place: equal records at two places are two elements. -/
abbrev Element (records : Records) := Fin records.size

/-- All records in order. -/
def elements (records : Records) : List records.Element := List.finRange records.size

/-- The record that an element is. -/
def record (records : Records) (e : records.Element) : Json := records[e]

/-- The scalar under a key. -/
def scalar? (record : Json) (key : String) : Option Value :=
  (record.field? key).bind Value.ofJson?

/-- The type of a field that holds values of both types. -/
def commonType (a b : ValueType) : ValueType :=
  if a = b then a else if a.isNumeric && b.isNumeric then .float else .string

/-- The type of the values under a key: that of all of them, and text if they
mix others than numbers or if there are none. -/
def fieldType (records : Records) (key : String) : ValueType :=
  match records.toList.filterMap fun r => (scalar? r key).map Value.valueType with
  | [] => .string
  | type :: types => types.foldl commonType type

/-- The value of a field: the scalar itself, or its text if the field is one of
texts. -/
def fieldValue (record : Json) (key : String) (type : ValueType) : Option Value :=
  (scalar? record key).map fun v => if type = .string then .string v.toText else v

/-- The keys of a record. -/
def keysOf : Json → List String
  | .object members => members.map (·.1)
  | _ => []

/-- The keys of all records, in order of their first occurrence. -/
def keys (records : Records) : List String :=
  (records.toList.flatMap keysOf).foldl
    (fun seen key => if seen.contains key then seen else seen ++ [key]) []

/-- The texts that words are looked for in: a record that is a text, or the
texts in its fields. -/
def searchTexts : Json → List String
  | .string s => [s]
  | .object members => members.filterMap fun m => m.2.string?
  | _ => []

/-- The filter for a key. -/
def fieldFilter (records : Records) (key : String) : Filter records.Element :=
  let type := records.fieldType key
  let value (e : records.Element) : Option Value := fieldValue (records.record e) key type
  (Filter.ofValues (.exact key) type fun e _ => value e).withNested type value

/-- The filter for the place of a record. -/
def indexFilter (records : Records) : Filter records.Element :=
  Filter.ofGetter "#index" fun e => UInt64.ofNat e.val

/-- The key by which `max` and `min` order records. -/
def orderKey (records : Records) (key : String) (e : records.Element) : Option Value :=
  scalar? (records.record e) key

/-- The engine for records without nested queries. -/
def flatEngine (records : Records) (orderBy : Option String) : Engine records.Element :=
  let filters := records.keys.map records.fieldFilter ++ [records.indexFilter]
  let engine : Engine records.Element :=
    { searchTexts := some fun e => searchTexts (records.record e) }
  let engine := filters.foldl (fun engine f => (engine.addFilter f).1) engine
  match orderBy with
  | none => engine
  | some key => (engine.addOrdering (records.orderKey key)).1

/-- The engine for records.  A nested query runs over the same records; it is
shorter than the query it stands in, so that `depth` beyond the length of a
query changes nothing. -/
def engine (records : Records) (orderBy : Option String) : (depth : Nat) → Engine records.Element
  | 0 => { records.flatEngine orderBy with nestedHandler := some fun _ _ => [] }
  | depth + 1 =>
    { records.flatEngine orderBy with
      nestedHandler := some fun query _ =>
        ((records.engine orderBy depth).parse query).results records.elements }

/-- The query that a text denotes over records. -/
def parse (records : Records) (orderBy : Option String) (text : String) (mode : Mode) :
    Query records.Element :=
  (records.engine orderBy text.utf8ByteSize).parse text mode

end Records

end FilterQuery
