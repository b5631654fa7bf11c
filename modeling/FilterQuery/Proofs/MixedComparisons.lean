import FilterQuery.Value
import FilterQuery.Proofs.BinaryFallback

/-!
# What numbers are compared as

Integers and decimals are exact, and compare with each other as the numbers they
are; so do two binary numbers.  An exact number and a binary one meet halfway:
the binary number gives up the digits that its decimal does not keep, or else
the exact one is cut off at `2 ^ 96`.  What is given up keeps the order.
-/

namespace FilterQuery

open Binary64 (IsCut)

theorem cutFrom_pos : 0 < cutFrom := by norm_num [cutFrom]

/-- An exact number is cut off behind all that it is equal to. -/
theorem cut_cases (q : ℚ) :
    cutFrom ≤ q ∧ cut q = 2 ^ 96 ∨ q ≤ -cutFrom ∧ cut q = -2 ^ 96 ∨
      (-cutFrom < q ∧ q < cutFrom) ∧ cut q = q := by
  have hpos := cutFrom_pos
  rcases le_or_gt cutFrom q with htop | htop
  · exact .inl ⟨htop, if_pos htop⟩
  · rcases le_or_gt q (-cutFrom) with hbottom | hbottom
    · refine .inr (.inl ⟨hbottom, ?_⟩)
      rw [cut, if_neg (by linarith), if_pos hbottom]
    · exact .inr (.inr ⟨⟨hbottom, htop⟩, cut_of_mem hbottom htop⟩)

/-- Decimals of binary numbers lie where nothing is cut off. -/
theorem compare_cut {p : ℚ} (q : ℚ) (hlow : -2 ^ 96 + 2 ^ 43 ≤ p) (hhigh : p ≤ 2 ^ 96 - 2 ^ 43) :
    compare p (cut q) = compare p q := by
  have hcut : cutFrom = 2 ^ 96 - 2 ^ 42 := rfl
  rcases cut_cases q with ⟨hq, heq⟩ | ⟨hq, heq⟩ | ⟨-, heq⟩
  · rw [compare_lt_iff_lt.mpr (show p < q by linarith), compare_lt_iff_lt, heq]
    linarith
  · rw [compare_gt_iff_gt.mpr (show q < p by linarith), compare_gt_iff_gt, heq]
    linarith
  · rw [heq]

/-- Cutting keeps the order. -/
theorem cut_mono {p q : ℚ} (h : p ≤ q) : cut p ≤ cut q := by
  have hcut : cutFrom = 2 ^ 96 - 2 ^ 42 := rfl
  rcases cut_cases p with ⟨hp, hp'⟩ | ⟨hp, hp'⟩ | ⟨⟨hp, hp''⟩, hp'⟩
  all_goals
    rcases cut_cases q with ⟨hq, hq'⟩ | ⟨hq, hq'⟩ | ⟨⟨hq, hq''⟩, hq'⟩
    all_goals
      refine hp'.trans_le (le_trans ?_ hq'.ge)
      linarith

/-- Different exact numbers are cut off alike where both are beyond what they
are cut from. -/
theorem cut_eq_iff {p q : ℚ} (h : p ≠ q) :
    cut p = cut q ↔ cutFrom ≤ p ∧ cutFrom ≤ q ∨ p ≤ -cutFrom ∧ q ≤ -cutFrom := by
  have hcut : cutFrom = 2 ^ 96 - 2 ^ 42 := rfl
  constructor
  · intro heq
    rcases cut_cases p with ⟨hp, hp'⟩ | ⟨hp, hp'⟩ | ⟨⟨hp, hp''⟩, hp'⟩
    all_goals
      rcases cut_cases q with ⟨hq, hq'⟩ | ⟨hq, hq'⟩ | ⟨⟨hq, hq''⟩, hq'⟩
      all_goals rw [hp', hq'] at heq
    case inl.inl => exact .inl ⟨hp, hq⟩
    case inr.inl.inr.inl => exact .inr ⟨hp, hq⟩
    case inr.inr.inr.inr => exact absurd heq h
    all_goals linarith
  · have hpos := cutFrom_pos
    rintro (⟨hp, hq⟩ | ⟨hp, hq⟩)
    · rw [cut, cut, if_pos hp, if_pos hq]
    · rw [cut, cut, if_neg (by linarith), if_pos hp, if_neg (by linarith), if_pos hq]

/-- The number that a binary number is compared as: its decimal, if it has
one. -/
def Binary64.comparand (y : Binary64) : ℚ :=
  (Decimal.ofBinary? y).elim y.number Decimal.number

namespace Binary64

variable {x y : Binary64}

/-- A binary number with a decimal is compared as that. -/
theorem comparand_of_some {d : Decimal} (h : Decimal.ofBinary? x = some d) :
    x.comparand = d.number := by
  rw [comparand, h, Option.elim_some]

/-- A binary number without a decimal is compared as it is. -/
theorem comparand_of_none (h : Decimal.ofBinary? x = none) : x.comparand = x.number := by
  rw [comparand, h, Option.elim_none]

/-- A binary number without a decimal is out of the range of decimals. -/
theorem beyond_of_none (h : Decimal.ofBinary? x = none) :
    2 ^ 96 ≤ x.number ∨ x.number ≤ -2 ^ 96 :=
  number_beyond (Decimal.ofBinary?_eq_none.mp h)

/-- A binary number with a decimal is in the range of decimals. -/
theorem number_within {d : Decimal} (h : Decimal.ofBinary? x = some d) :
    -2 ^ 96 < x.number ∧ x.number < 2 ^ 96 := by
  have hsome : Decimal.ofBinary? x ≠ none := by simp [h]
  have hmagnitude := mt Decimal.ofBinary?_eq_none.mpr hsome
  rw [← natAbs_place] at hmagnitude
  rw [← not_le, ← not_le, ← place_le_bottom, ← top_le_place]
  omega

/-- A binary number with a decimal is compared well within the range. -/
theorem comparand_within {d : Decimal} (h : Decimal.ofBinary? x = some d) :
    -2 ^ 96 + 2 ^ 43 ≤ x.comparand ∧ x.comparand ≤ 2 ^ 96 - 2 ^ 43 := by
  rw [comparand_of_some h]
  obtain ⟨hlow, hhigh⟩ := abs_le.mp (Decimal.abs_number_le h)
  constructor
  · linarith
  · exact hhigh

/-- **What binary numbers are compared as keeps their order.** -/
theorem comparand_mono (h : x.number ≤ y.number) : x.comparand ≤ y.comparand := by
  cases hx : Decimal.ofBinary? x with
  | none =>
      rw [comparand_of_none hx]
      cases hy : Decimal.ofBinary? y with
      | none => rwa [comparand_of_none hy]
      | some e =>
          have hwithin := (number_within hy).2
          have hcomparand := (comparand_within hy).1
          rcases beyond_of_none hx with hhigh | hlow
          · linarith
          · linarith
  | some d =>
      cases hy : Decimal.ofBinary? y with
      | none =>
          have hwithin := (number_within hx).1
          have hcomparand := (comparand_within hx).2
          rw [comparand_of_none hy]
          rcases beyond_of_none hy with hhigh | hlow
          · linarith
          · linarith
      | some e =>
          rw [comparand_of_some hx, comparand_of_some hy]
          refine Decimal.ofBinary?_mono hx hy ?_
          rw [← not_lt, ← number_lt_iff]
          exact not_lt.mpr h

/-- A number with a decimal is never compared as one without. -/
theorem comparand_ne {e : Decimal} (hx : Decimal.ofBinary? x = none)
    (hy : Decimal.ofBinary? y = some e) : x.comparand ≠ y.comparand := by
  intro heq
  rw [comparand_of_none hx] at heq
  obtain ⟨hlow, hhigh⟩ := comparand_within hy
  rcases beyond_of_none hx with habove | hbelow
  · linarith
  · linarith

/-- **Different binary numbers are compared alike** where they have the same
decimal. -/
theorem comparand_eq_iff (h : x.number ≠ y.number) :
    x.comparand = y.comparand ↔ ∃ d e, Decimal.ofBinary? x = some d ∧
      Decimal.ofBinary? y = some e ∧ d.number = e.number := by
  constructor
  · intro heq
    cases hx : Decimal.ofBinary? x with
    | none =>
        cases hy : Decimal.ofBinary? y with
        | none =>
            rw [comparand_of_none hx, comparand_of_none hy] at heq
            exact absurd heq h
        | some e => exact absurd heq (comparand_ne hx hy)
    | some d =>
        cases hy : Decimal.ofBinary? y with
        | none => exact absurd heq.symm (comparand_ne hy hx)
        | some e =>
            rw [comparand_of_some hx, comparand_of_some hy] at heq
            exact ⟨d, e, rfl, rfl, heq⟩
  · rintro ⟨d, e, hx, hy, heq⟩
    rw [comparand_of_some hx, comparand_of_some hy, heq]

end Binary64

/-- The order of binary numbers is reversed with them. -/
theorem Binary64.compare?_swap (x y : Binary64) :
    y.compare? x = (x.compare? y).map Ordering.swap := by
  rw [compare?, compare?, Bool.or_comm]
  split
  · rfl
  · exact congrArg some (Int.compare_swap _ _).symm

/-- The order of decimals is reversed with them. -/
theorem Decimal.compare_swap (d e : Decimal) : e.compare d = (d.compare e).swap :=
  (Int.compare_swap _ _).symm

namespace Value

/-- Numbers of different kinds are compared as decimals, or else as binary
numbers. -/
def compareMixed? (a b : Value) : Option Ordering :=
  match a.decimal?, b.decimal? with
  | some d, some e => some (d.compare e)
  | _, _ => do (← a.float?).compare? (← b.float?)

/-- Numbers of different kinds meet halfway. -/
theorem compareNumbers?_of_ne {a b : Value} (h : a.valueType ≠ b.valueType) :
    a.compareNumbers? b = a.compareMixed? b := by
  cases a <;> cases b
  all_goals first
    | rfl
    | exact absurd rfl h

/-- Numbers that meet halfway are ordered the other way round when reversed. -/
theorem compareMixed?_swap (a b : Value) :
    b.compareMixed? a = (a.compareMixed? b).map Ordering.swap := by
  unfold compareMixed?
  have hfloat : (do (← b.float?).compare? (← a.float?)) =
      (do (← a.float?).compare? (← b.float?) : Option Ordering).map Ordering.swap := by
    cases a.float? with
    | none => cases b.float? <;> rfl
    | some x =>
        cases b.float? with
        | none => rfl
        | some y => exact Binary64.compare?_swap x y
  cases a.decimal? with
  | none => cases b.decimal? <;> exact hfloat
  | some d =>
      cases b.decimal? with
      | none => exact hfloat
      | some e => exact congrArg some (Decimal.compare_swap d e)

/-- **Numbers of any kinds stand in the opposite order the other way round.** -/
theorem compareNumbers?_swap (a b : Value) :
    b.compareNumbers? a = (a.compareNumbers? b).map Ordering.swap := by
  by_cases hkind : a.valueType = b.valueType
  · cases a <;> cases b
    case integer.integer m n => exact congrArg some (Int.compare_swap _ _).symm
    case decimal.decimal d e => exact congrArg some (Decimal.compare_swap d e)
    case float.float x y => exact Binary64.compare?_swap x y
    case boolean.boolean p q => rfl
    case string.string s t => rfl
    case custom.custom v w => rfl
    all_goals cases hkind
  · rw [compareNumbers?_of_ne hkind, compareNumbers?_of_ne (Ne.symm hkind)]
    exact compareMixed?_swap a b

/-- Only numbers are compared as numbers. -/
theorem isNumeric_of_compareNumbers? {a b : Value} (h : a.compareNumbers? b ≠ none) :
    a.valueType.isNumeric = true ∧ b.valueType.isNumeric = true := by
  cases a <;> cases b
  all_goals first
    | exact ⟨rfl, rfl⟩
    | exact absurd rfl h
    | exact absurd (show compareMixed? _ _ = none by simp [compareMixed?, decimal?, float?]) h

end Value

namespace Value

/-- An integer, or a decimal of the decimal format, stands for a number
exactly. -/
inductive IsExact : Value → ℚ → Prop where
  | integer (n : Int64) : IsExact (.integer n) n.toInt
  | decimal {d : Decimal} (hcoefficient : d.coefficient < Decimal.bound)
      (hscale : d.scale ≤ Decimal.maxScale) : IsExact (.decimal d) d.number

section Exact

variable {a b : Value} {p q : ℚ}

/-- A number that stands for one exactly has a decimal for it. -/
theorem IsExact.decimal? (h : a.IsExact q) : ∃ d, a.decimal? = some d ∧ d.number = q := by
  cases h with
  | integer n => exact ⟨_, rfl, Decimal.number_ofInt _⟩
  | decimal hcoefficient hscale => exact ⟨_, rfl, rfl⟩

/-- A number that stands for one exactly is binary up to what is cut off. -/
theorem IsExact.float? (h : a.IsExact q) : ∃ y, a.float? = some y ∧ y.IsCut q := by
  cases h with
  | integer n =>
      have hlow := n.le_toInt
      have hhigh := n.toInt_lt
      exact ⟨_, rfl, Binary64.ofInt_isCut (by omega)⟩
  | decimal hcoefficient hscale =>
      exact ⟨_, rfl, Binary64.toBinary_isCut hcoefficient hscale⟩

/-- **Exact numbers are compared as the numbers they are.** -/
theorem compareNumbers?_exact (ha : a.IsExact p) (hb : b.IsExact q) :
    a.compareNumbers? b = some (compare p q) := by
  cases ha with
  | integer m =>
      cases hb with
      | integer n =>
          have hcast := (Int.cast_strictMono (R := ℚ)).cmp_map_eq m.toInt n.toInt
          rw [cmp_eq_compare, cmp_eq_compare] at hcast
          exact congrArg some hcast.symm
      | decimal hcoefficient hscale =>
          rw [← Decimal.number_ofInt m.toInt, ← Decimal.compare_eq]
          rfl
  | decimal hcoefficient hscale =>
      cases hb with
      | integer n =>
          rw [← Decimal.number_ofInt n.toInt, ← Decimal.compare_eq]
          rfl
      | decimal hcoefficient' hscale' => exact congrArg some (Decimal.compare_eq _ _)

/-- **Binary numbers are compared as the numbers they are.** -/
theorem compareNumbers?_binary {x y : Binary64} (hx : x.isNaN = false) (hy : y.isNaN = false) :
    (float x).compareNumbers? (float y) = some (compare x.number y.number) := by
  have heq : (float x).compareNumbers? (float y) = x.compare? y := rfl
  rw [heq, Binary64.compare?, hx, hy, ← Binary64.compare_place]
  rfl

/-- **A binary number and an exact one** are compared without what is given
up. -/
theorem compareNumbers?_halfway {x : Binary64} (hx : x.isNaN = false) (hb : b.IsExact q) :
    (float x).compareNumbers? b = some (compare x.comparand (cut q)) := by
  have hkind : (float x).valueType ≠ b.valueType := by cases hb <;> nofun
  obtain ⟨e, he, hq⟩ := hb.decimal?
  obtain ⟨y, hy, hcut⟩ := hb.float?
  have hdecimal : (float x).decimal? = Decimal.ofBinary? x := rfl
  have hfloat : (float x).float? = some x := rfl
  rw [compareNumbers?_of_ne hkind]
  unfold compareMixed?
  rw [hdecimal, he, hfloat, hy]
  cases hd : Decimal.ofBinary? x with
  | some d =>
      obtain ⟨hlow, hhigh⟩ := Binary64.comparand_within hd
      rw [compare_cut q hlow hhigh, Binary64.comparand_of_some hd, ← hq, ← Decimal.compare_eq]
  | none =>
      rw [Binary64.comparand_of_none hd, ← hcut.compare_eq (Decimal.ofBinary?_eq_none.mp hd)]
      simp [Binary64.compare?, hx, hcut.isNaN]

/-- **An exact number is compared with a binary one by what it is cut to.** -/
theorem IsExact.compareNumbers?_float {y : Binary64} (ha : a.IsExact p) (hy : y.isNaN = false) :
    a.compareNumbers? (float y) = some (compare (cut p) y.comparand) := by
  rw [compareNumbers?_swap, compareNumbers?_halfway hy ha, Option.map_some,
    ← Std.OrientedOrd.eq_swap]

theorem IsExact.unique (h : a.IsExact p) (h' : a.IsExact q) : p = q := by
  cases h <;> cases h' <;> rfl

end Exact

end Value

end FilterQuery
