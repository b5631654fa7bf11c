import FilterQuery.Proofs.MixedComparisons
import FilterQuery.Proofs.Numerals

/-!
# What numerals are compared as

An integer is compared with a binary number as with the decimal of that number,
if it has one.  So a numeral that is not read as an integer is compared as
another number than it denotes.  The two are close together, and no integer lies
between them or at one of them alone if the numeral has at most fifteen digits,
or denotes a whole number below `2 ^ 53`.
-/

namespace FilterQuery

open Number (readInt64? signed)

section Near

variable {q : ℚ} {y : Binary64}

/-- **The number that a binary number is compared as is close** to a number that
it is near. -/
theorem Binary64.comparand_near (hfinite : y.isFinite = true) (hq : 0 ≤ q)
    (hnear : |y.distance - q| ≤ q / 2 ^ 53 + 1 / 10 ^ 60) :
    |y.comparand - signed y.isNegative q| ≤ q / 2 ^ 49 + 3 / 10 ^ 28 := by
  rw [Binary64.comparand]
  rw [abs_le] at hnear
  cases hdecimal : Decimal.ofBinary? y with
  | none =>
      rw [Option.elim_none, Binary64.number, Number.signed_sub, Number.abs_signed, abs_le]
      constructor <;> linarith
  | some d =>
      obtain ⟨hsign, unit, hkeeps, hclose⟩ := Decimal.ofBinary?_near hfinite hdecimal
      have hunit : 0 ≤ unit ∧ 2 ^ 52 * unit ≤ 10 * d.distance := by
        rcases hkeeps with rfl | ⟨k, rfl, hle⟩
        · refine ⟨le_rfl, ?_⟩
          rw [mul_zero, Decimal.distance]
          positivity
        · exact ⟨by positivity, hle⟩
      rw [Option.elim_some, Decimal.number, hsign, Number.signed_sub, Number.abs_signed, abs_le]
      rw [abs_le] at hclose
      obtain ⟨hnonneg, hle⟩ := hunit
      constructor <;> linarith

/-- Whole numbers are compared as they are. -/
theorem Binary64.comparand_whole (hfinite : y.isFinite = true) {k : ℕ} (hk : y.distance = k) :
    y.comparand = signed y.isNegative k := by
  rw [Binary64.comparand]
  cases hdecimal : Decimal.ofBinary? y with
  | none => rw [Option.elim_none, Binary64.number, hk]
  | some d =>
      obtain ⟨hsign, -⟩ := Decimal.ofBinary?_near hfinite hdecimal
      rw [Option.elim_some, Decimal.number, hsign, Decimal.ofBinary?_whole hfinite hdecimal hk]

/-- **Few digits are kept.**  A number of at most fifteen digits, some of them
behind the point, is compared as one that is less than one unit of its last
digit away. -/
theorem Binary64.comparand_of_few_digits (hfinite : y.isFinite = true) {coefficient places : ℕ}
    (hplaces : places ≤ 15) (hdigits : coefficient < 10 ^ 15)
    (hq : q = coefficient / 10 ^ places)
    (hnear : |y.distance - q| ≤ q / 2 ^ 53 + 1 / 10 ^ 60) :
    |y.comparand - signed y.isNegative q| < 1 / 10 ^ places := by
  set t : ℚ := 1 / 10 ^ places with ht
  have hpos : 0 < t := by positivity
  have hnonneg : 0 ≤ q := by
    rw [hq]
    positivity
  have hbound : q < 10 ^ 15 * t := by
    have hlt : (coefficient : ℚ) < 10 ^ 15 := by exact_mod_cast hdigits
    rw [hq, ht, div_eq_mul_one_div]
    gcongr
  have hleast : 1 / 10 ^ 15 ≤ t := one_div_pow_le_one_div_pow_of_le (by norm_num) hplaces
  rw [abs_le] at hnear
  rw [Binary64.comparand]
  cases hdecimal : Decimal.ofBinary? y with
  | none =>
      rw [Option.elim_none, Binary64.number, Number.signed_sub, Number.abs_signed, abs_lt]
      constructor <;> linarith
  | some d =>
      obtain ⟨hsign, unit, hkeeps, hclose⟩ := Decimal.ofBinary?_near hfinite hdecimal
      rw [abs_le] at hclose
      have hunit : 0 ≤ unit ∧ unit ≤ t := by
        rcases hkeeps with rfl | ⟨k, rfl, hle⟩
        · exact ⟨le_rfl, hpos.le⟩
        · refine ⟨by positivity, one_div_pow_le_one_div_pow_of_le (by norm_num) ?_⟩
          -- A coarser unit would be ten times as large.
          by_contra hcoarse
          have hten : 10 * t ≤ 1 / 10 ^ k := by
            have hle : (1 : ℚ) / 10 ^ (places - 1) ≤ 1 / 10 ^ k :=
              one_div_pow_le_one_div_pow_of_le (by norm_num) (by omega)
            obtain ⟨p, rfl⟩ : ∃ p, places = p + 1 := ⟨places - 1, by omega⟩
            rw [Nat.add_sub_cancel] at hle
            refine le_trans (le_of_eq ?_) hle
            rw [ht, pow_succ]
            field_simp
          linarith
      obtain ⟨hunit0, hunitt⟩ := hunit
      rw [Option.elim_some, Decimal.number, hsign, Number.signed_sub, Number.abs_signed, abs_lt]
      constructor <;> linarith

end Near

/-- Two numbers have the same place among the integers. -/
def SamePlace (q r : ℚ) : Prop := ∀ n : ℤ, compare (n : ℚ) r = compare (n : ℚ) q

/-- A number with so many digits behind the point is a unit of the last digit
away from each integer that it is not. -/
theorem samePlace_of_digits {q r : ℚ} {numerator : ℤ} {places : ℕ}
    (hq : q = numerator / 10 ^ places) (hnear : |r - q| < 1 / 10 ^ places)
    (hfraction : ∀ n : ℤ, q ≠ n) : SamePlace q r := by
  intro n
  have hunit : (0 : ℚ) < 10 ^ places := by positivity
  have hscale : q * 10 ^ places = numerator := by
    rw [hq]
    field_simp
  rw [abs_lt] at hnear
  rcases lt_trichotomy (n : ℚ) q with hlt | heq | hgt
  · have hstep : (n : ℚ) + 1 / 10 ^ places ≤ q := by
      have hless : n * 10 ^ places < numerator := by
        have hmul : (n : ℚ) * 10 ^ places < q * 10 ^ places := by gcongr
        rw [hscale] at hmul
        exact_mod_cast hmul
      have hle : (n : ℚ) * 10 ^ places + 1 ≤ numerator := by exact_mod_cast hless
      rw [← mul_le_mul_iff_left₀ hunit, hscale, add_mul, one_div, inv_mul_cancel₀ hunit.ne']
      exact hle
    rw [compare_lt_iff_lt.mpr hlt, compare_lt_iff_lt]
    linarith
  · exact absurd heq.symm (hfraction n)
  · have hstep : q + 1 / 10 ^ places ≤ n := by
      have hless : numerator < n * 10 ^ places := by
        have hmul : q * 10 ^ places < (n : ℚ) * 10 ^ places := by gcongr
        rw [hscale] at hmul
        exact_mod_cast hmul
      have hle : (numerator : ℚ) + 1 ≤ n * 10 ^ places := by exact_mod_cast hless
      rw [← mul_le_mul_iff_left₀ hunit, add_mul, hscale, one_div, inv_mul_cancel₀ hunit.ne']
      exact hle
    rw [compare_gt_iff_gt.mpr hgt, compare_gt_iff_gt]
    linarith

namespace Numeral

variable (x : Numeral)

/-- The number that a numeral is compared as: the one that it denotes, if it is
read as an integer, or is not read at all. -/
def comparand : ℚ :=
  if (readInt64? x.chars).isNone && x.binary.isFinite then x.binary.comparand else x.value

/-- How far what a numeral is compared as may be from what it denotes. -/
def slack : ℚ := |x.value| / 2 ^ 49 + 3 / 10 ^ 28

/-- A numeral that is compared as what it denotes, as far as integers can tell:
a whole number of the 64-bit range without a point, at most fifteen digits, or a
whole number below `2 ^ 53`. -/
def IsShort : Prop :=
  x.IsInt64 ∨ (x.whole ++ x.decimals).length ≤ 15 ∨ ∃ n : ℤ, x.value = n ∧ |n| < 2 ^ 53

variable {x}

/-- The literal of a numeral is a binary number near to it, on the same side of
zero. -/
theorem binary_near (hfinite : x.binary.isFinite = true) :
    x.binary.isNegative = x.sign.isNegative ∧
      |x.binary.distance - x.distance| ≤ x.distance / 2 ^ 53 + 1 / 10 ^ 60 :=
  Number.toBinary_near hfinite

/-- Whole numbers below `2 ^ 53` are compared as they are, also with a point
behind them. -/
theorem binary_comparand_of_whole (hfinite : x.binary.isFinite = true) {n : ℤ}
    (hn : x.value = n) (hsmall : |n| < 2 ^ 53) : x.binary.comparand = x.value := by
  obtain ⟨hsign, -⟩ := binary_near hfinite
  have hdistance : x.distance = n.natAbs := by
    rw [← x.abs_value, hn, Nat.cast_natAbs, Int.cast_abs]
  have hlt : n.natAbs < 2 ^ 53 := by
    rw [Int.abs_eq_natAbs] at hsmall
    exact_mod_cast hsmall
  rw [value, hdistance, ← hsign]
  exact Binary64.comparand_whole hfinite (Number.toBinary_whole hdistance hlt)

/-- Fifteen digits are told apart from all integers. -/
theorem samePlace_of_length (hfinite : x.binary.isFinite = true)
    (hlength : (x.whole ++ x.decimals).length ≤ 15) :
    SamePlace x.value x.binary.comparand := by
  have hcoefficient : x.coefficient < 10 ^ 15 :=
    x.coefficient_lt.trans_le (Nat.pow_le_pow_right (by norm_num) hlength)
  by_cases hwhole : ∃ n : ℤ, x.value = n
  · obtain ⟨n, hn⟩ := hwhole
    have hle : x.distance ≤ x.coefficient :=
      div_le_self (by positivity) (one_le_pow₀ (by norm_num))
    have hlt : |(n : ℚ)| < 2 ^ 53 := by
      rw [← hn, x.abs_value]
      have hcast : (x.coefficient : ℚ) < 10 ^ 15 := by exact_mod_cast hcoefficient
      exact hle.trans_lt (hcast.trans (by norm_num))
    rw [SamePlace, binary_comparand_of_whole hfinite hn (by exact_mod_cast hlt)]
    exact fun _ => rfl
  · have hplaces : x.decimals.length ≤ 15 := by
      rw [List.length_append] at hlength
      omega
    obtain ⟨hsign, hnear⟩ := binary_near hfinite
    have hclose : |x.binary.comparand - x.value| < 1 / 10 ^ x.decimals.length := by
      rw [value, ← hsign]
      exact Binary64.comparand_of_few_digits hfinite hplaces hcoefficient rfl hnear
    obtain ⟨z, hz⟩ := x.exists_numerator
    exact samePlace_of_digits hz hclose fun n hn => hwhole ⟨n, hn⟩

variable (x)

/-- **A numeral is compared as a number close to the one that it denotes.** -/
theorem comparand_near : |x.comparand - x.value| ≤ x.slack := by
  rw [comparand]
  split
  · next hread =>
      have hfinite : x.binary.isFinite = true := (Bool.and_eq_true_iff.mp hread).2
      obtain ⟨hsign, hnear⟩ := binary_near hfinite
      rw [slack, abs_value, value, ← hsign]
      exact Binary64.comparand_near hfinite x.distance_nonneg hnear
  · rw [sub_self, abs_zero, slack]
    positivity

variable {x}

/-- **A short numeral is compared as what it denotes**, as far as integers can
tell. -/
theorem samePlace_of_isShort (h : x.IsShort) : SamePlace x.value x.comparand := by
  rw [comparand]
  split
  · next hread =>
      obtain ⟨hnone, hfinite⟩ := Bool.and_eq_true_iff.mp hread
      rcases h with hinteger | hlength | ⟨n, hn, hsmall⟩
      · obtain ⟨n, hn⟩ := x.exists_readInt64? hinteger
        rw [hn] at hnone
        cases hnone
      · exact samePlace_of_length hfinite hlength
      · rw [SamePlace, binary_comparand_of_whole hfinite hn hsmall]
        exact fun _ => rfl
  · exact fun _ => rfl

/-- An integer that is far enough from what a numeral denotes is compared with
that. -/
theorem compare_of_far {n : ℤ} (h : x.slack < |(n : ℚ) - x.value|) :
    compare (n : ℚ) x.comparand = compare (n : ℚ) x.value := by
  obtain ⟨hlow, hhigh⟩ := abs_le.mp x.comparand_near
  rcases lt_abs.mp h with habove | hbelow
  · have hlt : x.value < n := by linarith [abs_nonneg (x.comparand - x.value), x.comparand_near]
    rw [compare_gt_iff_gt.mpr hlt, compare_gt_iff_gt]
    linarith
  · have hlt : n < x.value := by linarith [abs_nonneg (x.comparand - x.value), x.comparand_near]
    rw [compare_lt_iff_lt.mpr hlt, compare_lt_iff_lt]
    linarith

end Numeral

namespace Value

/-- **An integer is compared with a binary number as with the number this is
compared as.** -/
theorem compareNumbers?_float (n : Int64) {y : Binary64} (hfinite : y.isFinite = true) :
    (integer n).compareNumbers? (float y) = some (compare (n.toInt : ℚ) y.comparand) := by
  have hlow : -(2 : ℚ) ^ 63 ≤ n.toInt := by exact_mod_cast n.le_toInt
  have hhigh : (n.toInt : ℚ) < 2 ^ 63 := by exact_mod_cast n.toInt_lt
  have hnan : y.isNaN = false := by
    rw [Binary64.isFinite, decide_eq_true_eq] at hfinite
    exact decide_eq_false (not_lt.mpr hfinite.le)
  have hcut : cut n.toInt = n.toInt :=
    cut_of_mem (by rw [cutFrom]; linarith) (by rw [cutFrom]; linarith)
  rw [(IsExact.integer n).compareNumbers?_float hnan, hcut]

end Value

namespace Numeral

variable (x : Numeral)

/-- **What a numeral is parsed into**, as one type after the other is tried: the
integer that it denotes, or else the nearest binary number, or else nothing. -/
theorem parse?_cases :
    (∃ n : Int64, ValueType.integer.parse? x.text = some (.integer n) ∧ x.comparand = n.toInt) ∨
      ValueType.integer.parse? x.text = none ∧
        (ValueType.float.parse? x.text = some (.float x.binary) ∧ x.binary.isFinite = true ∧
            x.comparand = x.binary.comparand ∨
          ValueType.float.parse? x.text = none ∧ ValueType.decimal.parse? x.text = none) := by
  have htext : x.text.toList = x.chars := String.toList_ofList
  cases hread : readInt64? x.chars with
  | some n =>
      refine .inl ⟨n, ?_, ?_⟩
      · rw [ValueType.parse?, trim_text, htext, hread]
        rfl
      · rw [comparand, hread, x.value_of_readInt64? hread]
        rfl
  | none =>
      refine .inr ⟨?_, ?_⟩
      · rw [ValueType.parse?, trim_text, htext, hread]
        rfl
      · cases hfinite : x.binary.isFinite with
        | true =>
            refine .inl ⟨?_, rfl, ?_⟩
            · rw [ValueType.parse?, trim_text, ofText?_text]
              dsimp only
              rw [if_pos hfinite]
            · rw [comparand, hread, hfinite]
              rfl
        | false =>
            refine .inr ⟨?_, ?_⟩
            · rw [ValueType.parse?, trim_text, ofText?_text]
              dsimp only
              rw [hfinite, if_neg Bool.false_ne_true]
            · rw [ValueType.parse?, trim_text,
                x.decimal_ofText?_text (Number.toBinary_infinite hfinite)]
              rfl

/-- **An integer is compared with the value of a numeral as with the numeral's
comparand.** -/
theorem compareNumbers?_parsed {type : ValueType} {v : Value} (n : Int64)
    (h : [ValueType.integer, .float, .decimal].findSome?
      (fun type => (type.parse? x.text).map (type, ·)) = some (type, v)) :
    type ∈ [ValueType.integer, .float] ∧
      (Value.integer n).compareNumbers? v = some (compare (n.toInt : ℚ) x.comparand) := by
  rcases x.parse?_cases with ⟨m, hinteger, hm⟩ | ⟨hinteger, ⟨hfloat, hfinite, hy⟩ | ⟨hfloat, hnone⟩⟩
  · simp only [List.findSome?_cons, hinteger, Option.map_some, Option.some.injEq,
      Prod.mk.injEq] at h
    obtain ⟨rfl, rfl⟩ := h
    rw [hm]
    exact ⟨by simp, Value.compareNumbers?_exact (.integer n) (.integer m)⟩
  · simp only [List.findSome?_cons, hinteger, hfloat, Option.map_some, Option.map_none,
      Option.some.injEq, Prod.mk.injEq] at h
    obtain ⟨rfl, rfl⟩ := h
    rw [hy]
    exact ⟨by simp, Value.compareNumbers?_float n hfinite⟩
  · simp [hinteger, hfloat, hnone] at h

end Numeral

end FilterQuery
