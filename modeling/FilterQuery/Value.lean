import FilterQuery.Json
import FilterQuery.Number.Decimal
import FilterQuery.Number.Literal
import FilterQuery.Text.Letters

/-!
# Values

What a filter reads from an element, and what the text after an operator is
parsed into.  The three kinds of number stay apart as values but compare with
one another: two of one kind directly, two of different kinds as decimals, and
as binary numbers only where a decimal cannot hold one of them.
-/

namespace FilterQuery

/-- The types that filters, parsers and operator handlers are keyed by. -/
inductive ValueType where
  | boolean
  | integer
  | float
  | decimal
  | string
  /-- A type of the embedding program, known by its name. -/
  | custom (name : String)
  /-- No particular type: every text can be parsed as it, to a string. -/
  | any
  deriving DecidableEq, Inhabited, Repr

namespace ValueType

def name : ValueType → String
  | boolean => "boolean"
  | integer => "integer"
  | float => "float"
  | decimal => "decimal"
  | string => "string"
  | custom name => name
  | any => "any"

def isNumeric : ValueType → Bool
  | integer | float | decimal => true
  | _ => false

end ValueType

/-- A value of a type of the embedding program.  Only handlers for its type know
what `content` says; apart from them it is the same value as another only by its
identity. -/
structure CustomValue where
  typeName : String
  identity : Nat
  content : String
  deriving DecidableEq, Inhabited, Repr

inductive Value where
  | boolean (b : Bool)
  | integer (n : Int64)
  | float (x : Binary64)
  | decimal (d : Decimal)
  | string (s : String)
  | custom (v : CustomValue)
  deriving Inhabited, Repr

namespace Value

def valueType : Value → ValueType
  | boolean _ => .boolean
  | integer _ => .integer
  | float _ => .float
  | decimal _ => .decimal
  | string _ => .string
  | custom v => .custom v.typeName

def string? : Value → Option String
  | string s => some s
  | _ => none

def boolean? : Value → Option Bool
  | boolean b => some b
  | _ => none

/-- The decimal that stands for a number: exact for integers and decimals. -/
def decimal? : Value → Option Decimal
  | integer n => some (Decimal.ofInt n.toInt)
  | float x => Decimal.ofBinary? x
  | decimal d => some d
  | _ => none

/-- The binary number nearest to a number. -/
def float? : Value → Option Binary64
  | integer n => some (Binary64.ofInt n.toInt)
  | float x => some x
  | decimal d => some d.toBinary
  | _ => none

/-- The order of two numbers of any kinds. -/
def compareNumbers? (a b : Value) : Option Ordering :=
  match a, b with
  | integer m, integer n => some (compare m.toInt n.toInt)
  | decimal d, decimal e => some (d.compare e)
  | float x, float y => x.compare? y
  | a, b =>
    match a.decimal?, b.decimal? with
    | some d, some e => some (d.compare e)
    | _, _ => do (← a.float?).compare? (← b.float?)

/-- Equality of values: by content for booleans and strings, by identity for
custom values, by order for numbers. -/
protected def beq (a b : Value) : Bool :=
  match a, b with
  | boolean p, boolean q => p == q
  | string s, string t => s == t
  | custom v, custom w => v.typeName == w.typeName && v.identity == w.identity
  | a, b => a.compareNumbers? b == some .eq

instance : BEq Value := ⟨Value.beq⟩

/-- The text that a value shows as. -/
def toText : Value → String
  | boolean b => if b then "true" else "false"
  | integer n => toString n.toInt
  | float x => x.toText
  | decimal d => d.toText
  | string s => s
  | custom v => "<" ++ v.typeName ++ ">"

/-- The value of a JSON scalar; null, arrays and objects have none. -/
def ofJson? : Json → Option Value
  | .boolean b => some (boolean b)
  | .number (.integer n) =>
    if n ≤ Int64.maxValue.toInt then some (integer (Int64.ofInt n))
    else some (float (Binary64.ofInt n))
  | .number (.float x) => some (float x)
  | .string s => some (string s)
  | .null | .array _ | .object _ => none

/-- The JSON form of a value: a decimal is written as a string, and what JSON
has no form for as null. -/
def toJson : Value → Json
  | boolean b => .boolean b
  | integer n => .number (.integer n.toInt)
  | float x => if x.isFinite then .number (.float x) else .null
  | decimal d => .string d.toText
  | string s => .string s
  | custom _ => .null

end Value

/-- Parses the text of a value; blanks around it count only in strings. -/
def ValueType.parse? (type : ValueType) (text : String) : Option Value :=
  let trimmed := Text.trim text
  match type with
  | .boolean =>
    if Text.eqIgnoreAsciiCase trimmed "true" then some (.boolean true)
    else if Text.eqIgnoreAsciiCase trimmed "false" then some (.boolean false)
    else none
  | .integer => (Number.readInt64? trimmed.toList).map .integer
  | .float =>
    match Binary64.ofText? trimmed with
    | some x => if x.isFinite then some (.float x) else none
    | none => none
  | .decimal => (Decimal.ofText? trimmed).map .decimal
  | .string | .any => some (.string text)
  | .custom _ => none

end FilterQuery
