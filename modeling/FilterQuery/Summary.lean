import FilterQuery.Filter
import FilterQuery.Operator
import FilterQuery.Text.Quoted

/-!
# Summaries

One-line descriptions of filters and operators for whoever sets up an engine:
what they are keyed by, but not the functions in them.
-/

namespace FilterQuery

namespace Summary

/-- Parts between delimiters, with commas. -/
def listed (left right : String) (parts : List String) : String :=
  left ++ ", ".intercalate parts ++ right

/-- A named record of fields. -/
def record (name : String) (fields : List (String × String)) : String :=
  name ++ listed " \x7b " " \x7d" (fields.map fun f => f.1 ++ ": " ++ f.2)

/-- A value that may be absent. -/
def optional (text : Option String) : String :=
  match text with
  | some t => "Some(" ++ t ++ ")"
  | none => "None"

def flag (b : Bool) : String := if b then "true" else "false"

end Summary

open Summary

def ValueType.summary : ValueType → String
  | boolean => "Boolean"
  | integer => "Integer"
  | float => "Float"
  | decimal => "Decimal"
  | string => "String"
  | custom name => "Custom(" ++ Text.quoted name ++ ")"
  | any => "Any"

def Filter.summary {α : Type} (f : Filter α) : String :=
  record "Filter" [
    ("token", Text.quoted f.token.toText),
    ("value_type", f.type.summary),
    ("parameter", optional (f.parameter.map (·.type.summary))),
    ("operators", optional (f.operators.map fun ops => listed "[" "]" (ops.map Text.quoted))),
    ("resolver", flag f.isDecider),
    ("nested", optional (f.nested.map (·.type.summary)))]

def Operator.summary (op : Operator) : String :=
  let pair (key : TypePair) : String := listed "(" ")" [key.1.summary, key.2.summary]
  record "FilterOperator" [
    ("token", Text.quoted op.token),
    ("handlers", listed "[" "]" (op.handlers.map fun h => pair h.1)),
    ("fallback", flag op.fallback.isSome)]

end FilterQuery
