import FilterQuery.Value

/-!
# Native types as values

Filters, parameters and handlers can be written over native types.  Such a type
has a value type, turns into values, and reads the values that it can hold.
-/

namespace FilterQuery

/-- A native type whose members travel as values. -/
class Scalar (β : Type) where
  valueType : ValueType
  toValue : β → Value
  ofValue? : Value → Option β

/-- A binary number of the 32-bit format, widened. -/
structure Single where
  wide : Binary64
  deriving DecidableEq, Inhabited, Repr

namespace Scalar

instance : Scalar Bool := ⟨.boolean, .boolean, Value.boolean?⟩

instance : Scalar String := ⟨.string, .string, Value.string?⟩

instance : Scalar Binary64 := ⟨.float, .float, Value.float?⟩

instance : Scalar Single :=
  ⟨.float, fun x => .float x.wide, fun v => v.float?.map fun x => ⟨x.toSingle⟩⟩

instance : Scalar Decimal := ⟨.decimal, .decimal, Value.decimal?⟩

/-- A type of whole numbers reads the integers from `low` up to `high`. -/
@[reducible] def ofRange (low high : Int) (toInt : β → Int) (ofInt : Int → β) : Scalar β where
  valueType := .integer
  toValue x := .integer (Int64.ofInt (toInt x))
  ofValue?
    | .integer n => if low ≤ n.toInt ∧ n.toInt ≤ high then some (ofInt n.toInt) else none
    | _ => none

instance : Scalar Int8 := ofRange Int8.minValue.toInt Int8.maxValue.toInt Int8.toInt Int8.ofInt
instance : Scalar Int16 := ofRange Int16.minValue.toInt Int16.maxValue.toInt Int16.toInt Int16.ofInt
instance : Scalar Int32 := ofRange Int32.minValue.toInt Int32.maxValue.toInt Int32.toInt Int32.ofInt
instance : Scalar Int64 := ofRange Int64.minValue.toInt Int64.maxValue.toInt Int64.toInt Int64.ofInt
instance : Scalar UInt8 := ofRange 0 (UInt8.size - 1) (·.toNat) UInt8.ofInt
instance : Scalar UInt16 := ofRange 0 (UInt16.size - 1) (·.toNat) UInt16.ofInt
instance : Scalar UInt32 := ofRange 0 (UInt32.size - 1) (·.toNat) UInt32.ofInt
instance : Scalar UInt64 := ofRange 0 (UInt64.size - 1) (·.toNat) UInt64.ofInt

end Scalar

end FilterQuery
