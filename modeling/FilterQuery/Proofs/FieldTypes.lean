import FilterQuery.Proofs.RecordEngines

/-!
# Types of fields

The filter for a key is typed by what stands under the key: the type is folded
up over the records, one scalar after the other.  In the end it says which kinds
of scalars there are, and nothing of their order or number: all of one type, or
only numbers, some of them with a fraction, or anything else, which is treated
as text.  So a record that has a scalar under the key has a value of this type;
only an integer among other numbers remains one.
-/

namespace FilterQuery.Records

/-- Different types have texts in common, unless both are numeric: then
floats. -/
theorem commonType_of_ne {a b : ValueType} (h : a ≠ b) :
    commonType a b = if a.isNumeric = true ∧ b.isNumeric = true then .float else .string := by
  rw [commonType, if_neg h]
  simp only [Bool.and_eq_true]

/-- Text remains text. -/
theorem foldl_string (types : List ValueType) : types.foldl commonType .string = .string := by
  induction types with
  | nil => rfl
  | cons t types ih =>
      have hstring : commonType .string t = .string := by
        by_cases h : ValueType.string = t
        · rw [commonType, if_pos h]
        · rw [commonType_of_ne h, if_neg fun hnumeric => Bool.false_ne_true hnumeric.1]
      rw [List.foldl_cons, hstring, ih]

/-- Numbers remain numbers among numbers. -/
theorem foldl_float (types : List ValueType) :
    types.foldl commonType .float =
      if ∀ t ∈ types, t.isNumeric = true then .float else .string := by
  induction types with
  | nil => rw [if_pos nofun]; rfl
  | cons t types ih =>
      rw [List.foldl_cons]
      simp only [List.forall_mem_cons]
      by_cases hnumeric : t.isNumeric = true
      · have hfloat : commonType .float t = .float := by
          by_cases h : ValueType.float = t
          · rw [commonType, if_pos h]
          · rw [commonType_of_ne h, if_pos ⟨rfl, hnumeric⟩]
        simp only [hfloat, ih, hnumeric, true_and]
      · have hne : ValueType.float ≠ t := by
          rintro rfl
          exact hnumeric rfl
        rw [commonType_of_ne hne, if_neg fun h => hnumeric h.2, foldl_string,
          if_neg fun h => hnumeric h.1]

/-- Types are folded to the one that all of them are, or else to that of numbers
or of text. -/
theorem foldl_commonType (type : ValueType) (types : List ValueType) :
    types.foldl commonType type =
      if ∀ t ∈ types, t = type then type
      else if ∀ t ∈ type :: types, t.isNumeric = true then .float
      else .string := by
  induction types with
  | nil => rw [if_pos nofun]; rfl
  | cons next types ih =>
      rw [List.foldl_cons]
      by_cases hsame : type = next
      · subst hsame
        simp only [commonType, if_true, ih, List.forall_mem_cons, true_and, and_self_left]
      · simp only [List.forall_mem_cons, Ne.symm hsame, false_and, if_false, commonType_of_ne hsame]
        by_cases hnumeric : type.isNumeric = true ∧ next.isNumeric = true
        · simp only [hnumeric, and_self, if_true, foldl_float, true_and]
        · rw [if_neg hnumeric, foldl_string, if_neg fun h => hnumeric ⟨h.1, h.2.1⟩]

/-- The types of the scalars under a key. -/
def typesOf (records : Records) (key : String) : List ValueType :=
  records.toList.filterMap fun r => (scalar? r key).map Value.valueType

section Types

variable {records : Records} {key : String} {type : ValueType}

/-- All scalars have one type, or there are several types, or none. -/
theorem fieldType_cases (records : Records) (key : String) :
    (records.typesOf key = [] ∧ records.fieldType key = .string) ∨
    (records.fieldType key ∈ records.typesOf key ∧
      ∀ t ∈ records.typesOf key, t = records.fieldType key) ∨
    (∃ a ∈ records.typesOf key, ∃ b ∈ records.typesOf key, a ≠ b) ∧
      records.fieldType key =
        if ∀ t ∈ records.typesOf key, t.isNumeric = true then .float else .string := by
  unfold fieldType typesOf
  cases records.toList.filterMap fun r => (scalar? r key).map Value.valueType with
  | nil => exact .inl ⟨rfl, rfl⟩
  | cons type types =>
      right
      dsimp only
      rw [foldl_commonType]
      by_cases hall : ∀ t ∈ types, t = type
      · left
        rw [if_pos hall]
        exact ⟨List.mem_cons_self, List.forall_mem_cons.mpr ⟨rfl, hall⟩⟩
      · right
        rw [if_neg hall]
        push Not at hall
        obtain ⟨other, hmem, hne⟩ := hall
        exact ⟨⟨type, List.mem_cons_self, other, List.mem_cons_of_mem _ hmem, Ne.symm hne⟩, rfl⟩

/-- A type other than those that stand in for several is the type of all
scalars. -/
theorem fieldType_eq_iff (hfloat : type ≠ .float) (hstring : type ≠ .string) :
    records.fieldType key = type ↔
      (∃ t, t ∈ records.typesOf key) ∧ ∀ t ∈ records.typesOf key, t = type := by
  rcases fieldType_cases records key with ⟨hnil, heq⟩ | ⟨hmem, hall⟩ | ⟨⟨a, ha, b, hb, hne⟩, heq⟩
  · rw [hnil, heq]
    simp [Ne.symm hstring]
  · constructor
    · rintro rfl
      exact ⟨⟨_, hmem⟩, hall⟩
    · rintro ⟨-, hall'⟩
      exact hall' _ hmem
  · refine iff_of_false ?_ fun h => hne ((h.2 a ha).trans (h.2 b hb).symm)
    rw [heq]
    split_ifs
    · exact Ne.symm hfloat
    · exact Ne.symm hstring

end Types

/-- What a record has under a key, if it is a scalar. -/
def HasScalar (record : Json) (key : String) (j : Json) : Prop :=
  record.field? key = some j ∧ (Value.ofJson? j).isSome = true

/-- One of the records has the scalar under the key. -/
def IsHeld (records : Records) (key : String) (j : Json) : Prop :=
  ∃ r ∈ records.toList, HasScalar r key j

/-- There are scalars under the key, and all are booleans. -/
def HoldsBooleans (records : Records) (key : String) : Prop :=
  (∃ j, records.IsHeld key j) ∧ ∀ j, records.IsHeld key j → ∃ b, j = .boolean b

/-- There are scalars under the key, and all are numbers that are read as
integers. -/
def HoldsIntegers (records : Records) (key : String) : Prop :=
  (∃ j, records.IsHeld key j) ∧
    ∀ j, records.IsHeld key j → ∃ n i, j = .number n ∧ Value.ofJson? j = some (.integer i)

/-- All scalars under the key are numbers, and one at least is read as a
float. -/
def HoldsFloats (records : Records) (key : String) : Prop :=
  (∀ j, records.IsHeld key j → ∃ n, j = .number n) ∧
    ∃ j, records.IsHeld key j ∧ ∃ x, Value.ofJson? j = some (.float x)

/-- A scalar is a boolean, an integer, a float or a text, as it stands in the
record. -/
theorem ofJson?_cases {j : Json} {v : Value} (h : Value.ofJson? j = some v) :
    (∃ b, j = .boolean b ∧ v = .boolean b) ∨ (∃ n i, j = .number n ∧ v = .integer i) ∨
      (∃ n x, j = .number n ∧ v = .float x) ∨ ∃ s, j = .string s ∧ v = .string s := by
  cases j with
  | boolean b => exact .inl ⟨b, rfl, (Option.some.inj h).symm⟩
  | string s => exact .inr (.inr (.inr ⟨s, rfl, (Option.some.inj h).symm⟩))
  | number n =>
      cases n with
      | integer n =>
          rw [Value.ofJson?] at h
          split at h
          · exact .inr (.inl ⟨_, _, rfl, (Option.some.inj h).symm⟩)
          · exact .inr (.inr (.inl ⟨_, _, rfl, (Option.some.inj h).symm⟩))
      | float x => exact .inr (.inr (.inl ⟨_, x, rfl, (Option.some.inj h).symm⟩))
  | null => cases h
  | array items => cases h
  | object members => cases h

section Kinds

variable {j : Json} {v : Value} (h : Value.ofJson? j = some v)
include h

/-- A scalar is a boolean exactly if its value is. -/
theorem isBoolean_iff : (∃ b, j = .boolean b) ↔ v.valueType = .boolean := by
  rcases ofJson?_cases h with
    ⟨b, rfl, rfl⟩ | ⟨n, i, rfl, rfl⟩ | ⟨n, x, rfl, rfl⟩ | ⟨s, rfl, rfl⟩ <;>
    simp [Value.valueType]

/-- A scalar is a number exactly if its value is. -/
theorem isNumber_iff : (∃ n, j = .number n) ↔ v.valueType.isNumeric = true := by
  rcases ofJson?_cases h with
    ⟨b, rfl, rfl⟩ | ⟨n, i, rfl, rfl⟩ | ⟨n, x, rfl, rfl⟩ | ⟨s, rfl, rfl⟩ <;>
    simp [Value.valueType, ValueType.isNumeric]

/-- A scalar is read as an integer exactly if its value is one. -/
theorem isInteger_iff :
    (∃ n i, j = .number n ∧ Value.ofJson? j = some (.integer i)) ↔ v.valueType = .integer := by
  rw [h]
  rcases ofJson?_cases h with
    ⟨b, rfl, rfl⟩ | ⟨n, i, rfl, rfl⟩ | ⟨n, x, rfl, rfl⟩ | ⟨s, rfl, rfl⟩ <;>
    simp [Value.valueType]

/-- A scalar is read as a float exactly if its value is one. -/
theorem isFloat_iff : (∃ x, Value.ofJson? j = some (.float x)) ↔ v.valueType = .float := by
  rw [h]
  rcases ofJson?_cases h with
    ⟨b, rfl, rfl⟩ | ⟨n, i, rfl, rfl⟩ | ⟨n, x, rfl, rfl⟩ | ⟨s, rfl, rfl⟩ <;>
    simp [Value.valueType]

/-- A scalar has one of four types. -/
theorem valueType_mem : v.valueType ∈ [.boolean, .integer, .float, .string] := by
  rcases ofJson?_cases h with
    ⟨b, rfl, rfl⟩ | ⟨n, i, rfl, rfl⟩ | ⟨n, x, rfl, rfl⟩ | ⟨s, rfl, rfl⟩ <;>
    simp [Value.valueType]

end Kinds

section Held

variable {records : Records} {key : String}

/-- A record has a value under a key exactly if it holds a scalar that is read
so. -/
theorem scalar?_eq_some {record : Json} {v : Value} :
    scalar? record key = some v ↔ ∃ j, HasScalar record key j ∧ Value.ofJson? j = some v := by
  rw [scalar?, Option.bind_eq_some_iff]
  constructor
  · rintro ⟨j, hfield, hv⟩
    exact ⟨j, ⟨hfield, by rw [hv]; rfl⟩, hv⟩
  · rintro ⟨j, ⟨hfield, -⟩, hv⟩
    exact ⟨j, hfield, hv⟩

/-- The types under a key are those of the scalars that some record holds
there. -/
theorem mem_typesOf {t : ValueType} :
    t ∈ records.typesOf key ↔
      ∃ j v, records.IsHeld key j ∧ Value.ofJson? j = some v ∧ v.valueType = t := by
  rw [typesOf, List.mem_filterMap]
  constructor
  · rintro ⟨r, hr, ht⟩
    obtain ⟨v, hv, rfl⟩ := Option.map_eq_some_iff.mp ht
    obtain ⟨j, hj, hv⟩ := scalar?_eq_some.mp hv
    exact ⟨j, v, ⟨r, hr, hj⟩, hv, rfl⟩
  · rintro ⟨j, v, ⟨r, hr, hj⟩, hv, rfl⟩
    exact ⟨r, hr, Option.map_eq_some_iff.mpr ⟨v, scalar?_eq_some.mpr ⟨j, hj, hv⟩, rfl⟩⟩

/-- What can be told of scalars by their types holds of all of them if it holds
of all types. -/
theorem forall_held_iff {P : Json → Prop} {Q : ValueType → Prop}
    (h : ∀ j v, Value.ofJson? j = some v → (P j ↔ Q v.valueType)) :
    (∀ j, records.IsHeld key j → P j) ↔ ∀ t ∈ records.typesOf key, Q t := by
  constructor
  · intro hall t ht
    obtain ⟨j, v, hj, hv, rfl⟩ := mem_typesOf.mp ht
    exact (h j v hv).mp (hall j hj)
  · intro hall j hj
    obtain ⟨r, hr, hfield, hsome⟩ := hj
    obtain ⟨v, hv⟩ := Option.isSome_iff_exists.mp hsome
    exact (h j v hv).mpr (hall _ (mem_typesOf.mpr ⟨j, v, ⟨r, hr, hfield, hsome⟩, hv, rfl⟩))

/-- What holds of some scalar exactly if it holds of its type can be told from
the types. -/
theorem exists_held_iff {P : Json → Prop} {Q : ValueType → Prop}
    (h : ∀ j v, Value.ofJson? j = some v → (P j ↔ Q v.valueType)) :
    (∃ j, records.IsHeld key j ∧ P j) ↔ ∃ t ∈ records.typesOf key, Q t := by
  have hnone : (∀ j, records.IsHeld key j → ¬ P j) ↔ ∀ t ∈ records.typesOf key, ¬ Q t :=
    forall_held_iff fun j v hv => not_congr (h j v hv)
  refine not_iff_not.mp ?_
  simpa only [not_exists, not_and] using hnone

/-- Some record holds a scalar under a key exactly if there is a type. -/
theorem exists_isHeld_iff :
    (∃ j, records.IsHeld key j) ↔ ∃ t, t ∈ records.typesOf key := by
  have hany : (∃ j, records.IsHeld key j ∧ True) ↔ ∃ t ∈ records.typesOf key, True :=
    exists_held_iff fun _ _ _ => Iff.rfl
  simpa using hany

/-- Each of the types under a key is one of four. -/
theorem typesOf_mem {t : ValueType} (ht : t ∈ records.typesOf key) :
    t ∈ [.boolean, .integer, .float, .string] := by
  obtain ⟨j, v, -, hv, rfl⟩ := mem_typesOf.mp ht
  exact valueType_mem hv

/-- Of the types of numbers a scalar has one of two. -/
theorem typesOf_numeric_cases {t : ValueType} (ht : t ∈ records.typesOf key)
    (hnumeric : t.isNumeric = true) : t = .integer ∨ t = .float := by
  have hkind := typesOf_mem ht
  simp only [List.mem_cons, List.not_mem_nil, or_false] at hkind
  rcases hkind with rfl | rfl | rfl | rfl
  · cases hnumeric
  · exact .inl rfl
  · exact .inr rfl
  · cases hnumeric

/-- A field is boolean exactly if booleans alone are held under it. -/
theorem fieldType_eq_boolean :
    records.fieldType key = .boolean ↔ records.HoldsBooleans key := by
  rw [fieldType_eq_iff (by decide) (by decide), HoldsBooleans, exists_isHeld_iff]
  exact and_congr_right fun _ => (forall_held_iff fun j v => isBoolean_iff).symm

/-- A field is an integer exactly if such numbers alone are held under it. -/
theorem fieldType_eq_integer :
    records.fieldType key = .integer ↔ records.HoldsIntegers key := by
  rw [fieldType_eq_iff (by decide) (by decide), HoldsIntegers, exists_isHeld_iff]
  exact and_congr_right fun _ => (forall_held_iff fun j v => isInteger_iff).symm

/-- A field is a float exactly if numbers alone are held under it and not all
are integers. -/
theorem fieldType_eq_float : records.fieldType key = .float ↔ records.HoldsFloats key := by
  have hheld : records.HoldsFloats key ↔ (∀ t ∈ records.typesOf key, t.isNumeric = true) ∧
      ∃ t ∈ records.typesOf key, t = .float :=
    and_congr (forall_held_iff fun j v => isNumber_iff) (exists_held_iff fun j v => isFloat_iff)
  rw [hheld]
  rcases fieldType_cases records key with ⟨hnil, heq⟩ | ⟨hmem, hall⟩ | ⟨⟨a, ha, b, hb, hne⟩, heq⟩
  · rw [hnil, heq]
    simp
  · constructor
    · intro heq
      refine ⟨fun t ht => ?_, _, hmem, heq⟩
      rw [hall t ht, heq]
      rfl
    · rintro ⟨-, t, ht, rfl⟩
      exact (hall _ ht).symm
  · rw [heq]
    constructor
    · intro hfloat
      have hnumeric : ∀ t ∈ records.typesOf key, t.isNumeric = true := by
        by_contra hnot
        rw [if_neg hnot] at hfloat
        cases hfloat
      -- Of two types of numbers one is that of floats.
      refine ⟨hnumeric, ?_⟩
      rcases typesOf_numeric_cases ha (hnumeric a ha) with rfl | rfl
      · rcases typesOf_numeric_cases hb (hnumeric b hb) with rfl | rfl
        · exact absurd rfl hne
        · exact ⟨_, hb, rfl⟩
      · exact ⟨_, ha, rfl⟩
    · rintro ⟨hnumeric, -⟩
      exact if_pos hnumeric

/-- A field has one of four types. -/
theorem fieldType_mem (records : Records) (key : String) :
    records.fieldType key ∈ [.boolean, .integer, .float, .string] := by
  rcases fieldType_cases records key with ⟨-, heq⟩ | ⟨hmem, -⟩ | ⟨-, heq⟩
  · simp [heq]
  · exact typesOf_mem hmem
  · rw [heq]
    split_ifs <;> simp

/-- A field is a text in all other cases. -/
theorem fieldType_eq_string :
    records.fieldType key = .string ↔ ¬ records.HoldsBooleans key ∧
      ¬ records.HoldsIntegers key ∧ ¬ records.HoldsFloats key := by
  rw [← fieldType_eq_boolean, ← fieldType_eq_integer, ← fieldType_eq_float]
  have hmem := fieldType_mem records key
  simp only [List.mem_cons, List.not_mem_nil, or_false] at hmem
  rcases hmem with heq | heq | heq | heq <;> simp [heq]

/-- Records that are the same but for their order and number give fields the
same types. -/
theorem fieldType_congr {others : Records} (h : ∀ r, r ∈ others.toList ↔ r ∈ records.toList) :
    others.fieldType key = records.fieldType key := by
  have hheld : others.IsHeld key = records.IsHeld key := by
    funext j
    simp only [IsHeld, h]
  have hmem := fieldType_mem records key
  simp only [List.mem_cons, List.not_mem_nil, or_false] at hmem
  rcases hmem with heq | heq | heq | heq
  · rw [heq, fieldType_eq_boolean, HoldsBooleans, hheld]
    exact fieldType_eq_boolean.mp heq
  · rw [heq, fieldType_eq_integer, HoldsIntegers, hheld]
    exact fieldType_eq_integer.mp heq
  · rw [heq, fieldType_eq_float, HoldsFloats, hheld]
    exact fieldType_eq_float.mp heq
  · rw [heq, fieldType_eq_string, HoldsBooleans, HoldsIntegers, HoldsFloats, hheld]
    exact fieldType_eq_string.mp heq

/-- The value of a record has the type of the field, but for integers among
other numbers. -/
theorem fieldValue_valueType {record : Json} (hrecord : record ∈ records.toList) {v : Value}
    (hv : fieldValue record key (records.fieldType key) = some v) :
    v.valueType = records.fieldType key ∨
      records.fieldType key = .float ∧ v.valueType = .integer := by
  obtain ⟨scalar, hscalar, rfl⟩ := Option.map_eq_some_iff.mp hv
  have hmem : scalar.valueType ∈ records.typesOf key :=
    List.mem_filterMap.mpr ⟨record, hrecord, by rw [hscalar]; rfl⟩
  split_ifs with hstring
  · exact .inl hstring.symm
  rcases fieldType_cases records key with ⟨hnil, -⟩ | ⟨-, hall⟩ | ⟨-, heq⟩
  · rw [hnil] at hmem
    cases hmem
  · exact .inl (hall _ hmem)
  · have hnumeric : ∀ t ∈ records.typesOf key, t.isNumeric = true := by
      by_contra hnot
      exact hstring (heq.trans (if_neg hnot))
    rw [heq, if_pos hnumeric]
    rcases typesOf_numeric_cases hmem (hnumeric _ hmem) with hkind | hkind
    · exact .inr ⟨rfl, hkind⟩
    · exact .inl hkind

/-- A field has no value exactly if the record holds no scalar under it. -/
theorem fieldValue_eq_none {record : Json} {type : ValueType} :
    fieldValue record key type = none ↔ ¬ ∃ j, HasScalar record key j := by
  rw [fieldValue, Option.map_eq_none_iff]
  constructor
  · rintro hnone ⟨j, hj⟩
    obtain ⟨v, hv⟩ := Option.isSome_iff_exists.mp hj.2
    cases hnone.symm.trans (scalar?_eq_some.mpr ⟨j, hj, hv⟩)
  · intro hnone
    refine Option.eq_none_iff_forall_ne_some.mpr fun v hv => hnone ?_
    obtain ⟨j, hj, -⟩ := scalar?_eq_some.mp hv
    exact ⟨j, hj⟩

end Held

/-- **Fields are typed by what stands under their keys.**  The type of a field
depends on which records there are, and not on their order or on how often there
is one: it is that of booleans, of integers or of floats if scalars under the
key are nothing else, where floats may have integers among them, and that of
text in any other case.  A record has no value for the field exactly if it has
no scalar under the key, and the values are of the type of the field, or
integers in a field of floats. -/
theorem field_types_are_sound (records : Records) (key : String) :
    (∀ others : Records, (∀ r, r ∈ others.toList ↔ r ∈ records.toList) →
      others.fieldType key = records.fieldType key) ∧
    (records.fieldType key = .boolean ↔ records.HoldsBooleans key) ∧
    (records.fieldType key = .integer ↔ records.HoldsIntegers key) ∧
    (records.fieldType key = .float ↔ records.HoldsFloats key) ∧
    (records.fieldType key = .string ↔ ¬ records.HoldsBooleans key ∧
      ¬ records.HoldsIntegers key ∧ ¬ records.HoldsFloats key) ∧
    ∀ r, (fieldValue r key (records.fieldType key) = none ↔ ¬ ∃ j, HasScalar r key j) ∧
      (r ∈ records.toList → ∀ v, fieldValue r key (records.fieldType key) = some v →
        v.valueType = records.fieldType key ∨
          records.fieldType key = .float ∧ v.valueType = .integer) := by
  refine ⟨fun others h => fieldType_congr h, fieldType_eq_boolean, fieldType_eq_integer,
    fieldType_eq_float, fieldType_eq_string, fun r => ⟨fieldValue_eq_none, fun hr v hv => ?_⟩⟩
  exact fieldValue_valueType hr hv

/-- Of two numbers one is a fraction: the field is one of floats in any order,
and the integer remains one. -/
theorem type_of_an_integer_and_a_fraction :
    let whole : Json := .object [("ratio", .number (.integer 1))]
    let half : Json := .object [("ratio", .number (.float ⟨0x3fe0000000000000⟩))]
    Records.fieldType #[half, whole, half] "ratio" = Records.fieldType #[whole, half] "ratio" ∧
      Records.fieldType #[whole, half] "ratio" = .float ∧
      ∀ v, fieldValue whole "ratio" (Records.fieldType #[whole, half] "ratio") = some v →
        v.valueType = .float ∨ v.valueType = .integer := by
  intro whole half
  obtain ⟨hcongr, -, -, -, -, hvalues⟩ := field_types_are_sound #[whole, half] "ratio"
  have hfloat : Records.fieldType #[whole, half] "ratio" = .float := by decide +kernel
  refine ⟨hcongr #[half, whole, half] fun r => ?_, hfloat, fun v hv => ?_⟩
  · simp only [List.mem_cons, List.not_mem_nil, or_false]
    tauto
  · rcases (hvalues whole).2 List.mem_cons_self v hv with hkind | ⟨-, hkind⟩
    · exact .inl (hkind.trans hfloat)
    · exact .inr hkind

end FilterQuery.Records
