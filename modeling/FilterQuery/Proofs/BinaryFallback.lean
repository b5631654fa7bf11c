import FilterQuery.Proofs.RoundedDecimals

/-!
# Binary numbers of integers and decimals

Where a binary number is beyond all decimals, the other side of a comparison is
made a binary number as well.  No integer or decimal gets beyond `2 ^ 96` by
this, and those that get there are the last `2 ^ 42` in front of it: the rest is
rounded below.  For a decimal with digits behind its point the conversion goes
through several roundings, none of which takes it anywhere near.
-/

namespace FilterQuery

namespace Binary64

open Number (signed)

variable {negative : Bool} {num den : ℕ}

namespace Rounds

variable {q : ℚ} {e : ℤ} {m : ℕ}

/-- What is below `2 ^ 96` is rounded to this at most. -/
theorem word_le_top (h : Rounds q e m) (hq : q < 2 ^ 96) :
    e ≤ 43 ∧ (e + 1074).toNat * exponentWeight + m ≤ topMagnitude := by
  have hexponent : e ≤ 43 := h.exponent_le (by decide) (by norm_num; exact hq)
  have hlowest := h.lowest
  have hmantissa := h.mantissa_le
  refine ⟨hexponent, ?_⟩
  rw [topMagnitude, exponentWeight]
  omega

/-- It is rounded to `2 ^ 96` if it is less than half a unit below. -/
theorem word_eq_top_iff (h : Rounds q e m) (hq : q < 2 ^ 96) (htie : q + 2 ^ 42 ≠ 2 ^ 96) :
    (e + 1074).toNat * exponentWeight + m = topMagnitude ↔ 2 ^ 96 ≤ q + 2 ^ 42 := by
  obtain ⟨hexponent, -⟩ := h.word_le_top hq
  obtain ⟨hbelow, habove⟩ := abs_le.mp h.near
  have hlowest := h.lowest
  have hmantissa := h.mantissa_le
  rw [topMagnitude, exponentWeight]
  constructor
  · intro htop
    obtain ⟨rfl, rfl⟩ : e = 43 ∧ m = 2 ^ 53 := by omega
    norm_num at habove ⊢
    linarith
  · intro hlarge
    have hmore : 2 ^ 96 < q + 2 ^ 42 := lt_of_le_of_ne hlarge (Ne.symm htie)
    -- With a lower exponent there would be nothing above `2 ^ 95`.
    obtain rfl : e = 43 := by
      by_contra hne
      have hunit : (2 : ℚ) ^ e ≤ 2 ^ (42 : ℤ) := zpow_le_zpow_right₀ one_le_two (by omega)
      have hmantissa' : (m : ℚ) ≤ 2 ^ 53 := by exact_mod_cast hmantissa
      have hless : (m : ℚ) * 2 ^ e ≤ 2 ^ 53 * 2 ^ (42 : ℤ) := by gcongr
      norm_num at hunit hless hmore
      linarith
    have hfull : (2 : ℚ) ^ 53 < m + 1 := by
      norm_num at hbelow hmore ⊢
      linarith
    have hfull' : 2 ^ 53 < m + 1 := by exact_mod_cast hfull
    omega

end Rounds

/-- **Whole numbers below `2 ^ 96`** are rounded to at most this, and to it from
its last half unit on. -/
theorem ofRatio_top (negative : Bool) (h : num < 2 ^ 96) :
    (ofRatio negative num 1).isNegative = negative ∧
      (ofRatio negative num 1).magnitude ≤ topMagnitude ∧
      ((ofRatio negative num 1).magnitude = topMagnitude ↔ 2 ^ 96 ≤ num + 2 ^ 42) := by
  rcases num.eq_zero_or_pos with rfl | hpos
  · rw [ofRatio_zero, isNegative_ofMagnitude (by decide), magnitude_ofMagnitude (by decide)]
    refine ⟨rfl, ?_⟩
    decide
  by_cases htie : num = 2 ^ 96 - 2 ^ 42
  · subst htie
    cases negative with
    | false => decide +kernel
    | true => decide +kernel
  obtain ⟨e, m, hrounds, hword⟩ := exists_rounds negative hpos Nat.one_pos
  rw [Nat.cast_one, div_one] at hrounds
  have hbelow : (num : ℚ) < 2 ^ 96 := by exact_mod_cast h
  have htie' : (num : ℚ) + 2 ^ 42 ≠ 2 ^ 96 := by
    have hne : num + 2 ^ 42 ≠ 2 ^ 96 := by omega
    exact_mod_cast hne
  have hle := (hrounds.word_le_top hbelow).2
  have hfinite : topMagnitude < infiniteMagnitude := by decide
  have hsign : topMagnitude < signWeight := by decide
  rw [hword, min_eq_right (hle.trans hfinite.le), isNegative_ofMagnitude (hle.trans_lt hsign),
    magnitude_ofMagnitude (hle.trans_lt hsign), hrounds.word_eq_top_iff hbelow htie']
  refine ⟨rfl, hle, ?_⟩
  exact_mod_cast Iff.rfl

/-- A finite number is no further from zero than this. -/
structure IsWithin (x : Binary64) (q : ℚ) : Prop where
  finite : x.isFinite = true
  distance_le : x.distance ≤ q

/-- Fractions are rounded up by a quarter at most, and not to infinity. -/
theorem ofRatio_isWithin (negative : Bool) (hden : 0 < den) {q : ℚ} (h : (num / den : ℚ) ≤ q)
    (hq : q ≤ 2 ^ 200) : IsWithin (ofRatio negative num den) (5 / 4 * q + 1) := by
  have hfinite : (ofRatio negative num den).isFinite = true := by
    by_contra hinfinite
    have hlarge := ofRatio_infinite negative hden (eq_false_of_ne_true hinfinite)
    have hpower : (2 : ℚ) ^ 200 < 2 ^ 1023 := pow_lt_pow_right₀ one_lt_two (by decide)
    exact absurd (hlarge.trans (h.trans hq)) (not_le.mpr hpower)
  refine ⟨hfinite, ?_⟩
  have hnear := (abs_le.mp (ofRatio_near negative hden hfinite).2).2
  have hratio : (0 : ℚ) ≤ num / den := by positivity
  norm_num at hnear
  linarith

/-- The ratio of a binary number is its distance from zero. -/
theorem ratio_distance (x : Binary64) : (x.ratio.1 : ℚ) / x.ratio.2 = x.distance := by
  rw [ratio, scaleBinary_ratio, distance]
  norm_num

theorem ratio_pos (x : Binary64) : 0 < x.ratio.2 := scaleBinary_pos x.mantissa Nat.one_pos _

section Operations

variable {x y : Binary64} {p q : ℚ}

/-- A number within a bound is within every greater one. -/
theorem IsWithin.mono (hx : x.IsWithin p) (h : p ≤ q) : x.IsWithin q :=
  ⟨hx.finite, hx.distance_le.trans h⟩

theorem IsWithin.nonneg (hx : x.IsWithin p) : 0 ≤ p := x.distance_nonneg.trans hx.distance_le

/-- A sum is within a little more than the sum of the bounds. -/
theorem addMagnitudes_isWithin (hx : x.IsWithin p) (hy : y.IsWithin q) (hr : p + q ≤ 2 ^ 200) :
    IsWithin (x.addMagnitudes y) (5 / 4 * (p + q) + 1) := by
  have heq : x.addMagnitudes y = ofRatio false
      (x.ratio.1 * y.ratio.2 + y.ratio.1 * x.ratio.2) (x.ratio.2 * y.ratio.2) := rfl
  rw [heq]
  have hxpos : (0 : ℚ) < x.ratio.2 := by exact_mod_cast x.ratio_pos
  have hypos : (0 : ℚ) < y.ratio.2 := by exact_mod_cast y.ratio_pos
  refine ofRatio_isWithin false (Nat.mul_pos x.ratio_pos y.ratio_pos) ?_ hr
  calc _ = (x.ratio.1 : ℚ) / x.ratio.2 + y.ratio.1 / y.ratio.2 := by
        push_cast
        field_simp
    _ ≤ p + q := by
        rw [ratio_distance, ratio_distance]
        exact add_le_add hx.distance_le hy.distance_le

/-- A product is within a little more than the product of the bounds. -/
theorem mulMagnitudes_isWithin (hx : x.IsWithin p) (hy : y.IsWithin q) (hr : p * q ≤ 2 ^ 200) :
    IsWithin (x.mulMagnitudes y) (5 / 4 * (p * q) + 1) := by
  have heq : x.mulMagnitudes y =
      ofRatio false (x.ratio.1 * y.ratio.1) (x.ratio.2 * y.ratio.2) := rfl
  rw [heq]
  refine ofRatio_isWithin false (Nat.mul_pos x.ratio_pos y.ratio_pos) ?_ hr
  calc _ = (x.ratio.1 : ℚ) / x.ratio.2 * (y.ratio.1 / y.ratio.2) := by
        push_cast
        rw [div_mul_div_comm]
    _ ≤ p * q := by
        rw [ratio_distance, ratio_distance]
        exact mul_le_mul hx.distance_le hy.distance_le y.distance_nonneg hx.nonneg

/-- A quotient is within a little more than the quotient of the bounds. -/
theorem divMagnitudes_isWithin (hx : x.IsWithin p) (hq : 0 < q) (hy : q ≤ y.distance)
    (hr : p / q ≤ 2 ^ 200) : IsWithin (x.divMagnitudes y) (5 / 4 * (p / q) + 1) := by
  have heq : x.divMagnitudes y =
      ofRatio false (x.ratio.1 * y.ratio.2) (x.ratio.2 * y.ratio.1) := rfl
  rw [heq]
  have hypos : 0 < y.ratio.1 := by
    refine Nat.pos_of_ne_zero fun hzero => ?_
    rw [← ratio_distance, hzero] at hy
    norm_num at hy
    linarith
  refine ofRatio_isWithin false (Nat.mul_pos x.ratio_pos hypos) ?_ hr
  calc _ = (x.ratio.1 : ℚ) / x.ratio.2 / (y.ratio.1 / y.ratio.2) := by
        push_cast
        rw [div_div_div_eq]
    _ ≤ p / q := by
        rw [ratio_distance, ratio_distance]
        exact div_le_div₀ hx.nonneg hx.distance_le hq hy

/-- A rounded number is within a little more than its bound. -/
theorem roundMagnitude_isWithin (hx : x.IsWithin p) (hr : p + 1 ≤ 2 ^ 200) :
    IsWithin x.roundMagnitude (5 / 4 * (p + 1) + 1) := by
  have heq : x.roundMagnitude =
      ofRatio false ((2 * x.ratio.1 + x.ratio.2) / (2 * x.ratio.2)) 1 := rfl
  rw [heq]
  have hpos : (0 : ℚ) < x.ratio.2 := by exact_mod_cast x.ratio_pos
  refine ofRatio_isWithin false Nat.one_pos ?_ hr
  calc _ ≤ ((2 * x.ratio.1 + x.ratio.2 : ℕ) : ℚ) / (2 * x.ratio.2 : ℕ) := by
        rw [Nat.cast_one, div_one]
        exact Nat.cast_div_le
    _ = (x.ratio.1 : ℚ) / x.ratio.2 + 1 / 2 := by
        push_cast
        field_simp
    _ ≤ p + 1 := by
        rw [ratio_distance]
        linarith [hx.distance_le]

end Operations

end Binary64

namespace Decimal

open Binary64

variable {d : Decimal}

/-- The powers of ten of the scales as binary numbers, roughly. -/
theorem binaryPower_bounds {scale : ℕ} (h : scale ≤ maxScale) :
    IsWithin (binaryPower (Binary64.ofInt 10) 6 scale (Binary64.ofInt 1)) (2 ^ 94) ∧
      1 ≤ (binaryPower (Binary64.ofInt 10) 6 scale (Binary64.ofInt 1)).distance := by
  have hall : ∀ scale : Fin 29,
      (binaryPower (Binary64.ofInt 10) 6 scale (Binary64.ofInt 1)).isFinite = true ∧
        (binaryPower (Binary64.ofInt 10) 6 scale (Binary64.ofInt 1)).ratio.1 ≤
          2 ^ 94 * (binaryPower (Binary64.ofInt 10) 6 scale (Binary64.ofInt 1)).ratio.2 ∧
        (binaryPower (Binary64.ofInt 10) 6 scale (Binary64.ofInt 1)).ratio.2 ≤
          (binaryPower (Binary64.ofInt 10) 6 scale (Binary64.ofInt 1)).ratio.1 := by
    decide +kernel
  rw [maxScale] at h
  obtain ⟨hfinite, hhigh, hlow⟩ := hall ⟨scale, by omega⟩
  set power := binaryPower (Binary64.ofInt 10) 6 scale (Binary64.ofInt 1) with hpower
  have hpos : (0 : ℚ) < power.ratio.2 := by exact_mod_cast power.ratio_pos
  refine ⟨⟨hfinite, ?_⟩, ?_⟩
  · rw [← ratio_distance, div_le_iff₀ hpos]
    exact_mod_cast hhigh
  · rw [← ratio_distance, le_div_iff₀ hpos, one_mul]
    exact_mod_cast hlow

/-- Rounding to a scale. -/
theorem rounded_isWithin {x power : Binary64} {q : ℚ} (hx : x.IsWithin q) (hq : q ≤ 2 ^ 100)
    (hpower : power.IsWithin (2 ^ 94)) (hone : 1 ≤ power.distance) :
    IsWithin ((x.mulMagnitudes power).roundMagnitude.divMagnitudes power) (2 * q + 6) := by
  have hnonneg := hx.nonneg
  have hpos : 0 < power.distance := one_pos.trans_le hone
  have hself : power.IsWithin power.distance := ⟨hpower.finite, le_rfl⟩
  have hproduct : q * power.distance ≤ 2 ^ 100 * 2 ^ 94 := by
    gcongr
    exact hpower.distance_le
  norm_num at hproduct
  have hscaled := mulMagnitudes_isWithin hx hself (by norm_num; linarith)
  have hrounded := roundMagnitude_isWithin hscaled (by norm_num; linarith)
  have hratio : (5 / 4 * (5 / 4 * (q * power.distance) + 1 + 1) + 1) / power.distance ≤
      25 / 16 * q + 4 := by
    rw [div_le_iff₀ hpos]
    linarith
  have hresult := divMagnitudes_isWithin hrounded hpos le_rfl (by norm_num at hq ⊢; linarith)
  exact hresult.mono (by linarith)

/-- A fraction below one, by way of two whole numbers. -/
theorem fraction_isWithin {rest unit : ℕ} (hrest : rest < unit) (hunit : (unit : ℚ) ≤ 10 ^ 28) :
    IsWithin ((ofRatio false rest 1).divMagnitudes (ofRatio false unit 1)) 7 := by
  have hone : (1 : ℚ) ≤ unit := by exact_mod_cast (by omega : 1 ≤ unit)
  have hless : (rest : ℚ) ≤ unit := by exact_mod_cast hrest.le
  have hnumerator : IsWithin (ofRatio false rest 1) (5 / 4 * unit + 1) := by
    refine ofRatio_isWithin false Nat.one_pos ?_ ?_
    · rwa [Nat.cast_one, div_one]
    · exact hunit.trans (by norm_num)
  have hdenominator : (unit / 2 : ℚ) ≤ (ofRatio false unit 1).distance := by
    have hwithin : IsWithin (ofRatio false unit 1) (5 / 4 * 10 ^ 28 + 1) :=
      ofRatio_isWithin false Nat.one_pos (by rwa [Nat.cast_one, div_one]) (by norm_num)
    have hnear := (abs_le.mp (ofRatio_near false Nat.one_pos hwithin.finite).2).1
    rw [Nat.cast_one, div_one] at hnear
    norm_num at hnear
    linarith
  have hratio : (5 / 4 * unit + 1) / (unit / 2 : ℚ) ≤ 9 / 2 := by
    rw [div_le_iff₀ (by linarith)]
    linarith
  have hresult := divMagnitudes_isWithin hnumerator (by linarith) hdenominator
    (hratio.trans (by norm_num))
  exact hresult.mono (by linarith)

/-- **A decimal with digits behind the point** gets nowhere near `2 ^ 96`. -/
theorem toBinary_below (hcoefficient : d.coefficient < bound) (hpos : d.scale ≠ 0)
    (hscale : d.scale ≤ maxScale) : d.toBinary.magnitude < topMagnitude := by
  have hten : 10 ≤ 10 ^ d.scale := Nat.le_self_pow hpos 10
  have hunit : ((10 ^ d.scale : ℕ) : ℚ) ≤ 10 ^ 28 := by
    push_cast
    exact pow_le_pow_right₀ (by norm_num) hscale
  have hwhole : ((d.coefficient / 10 ^ d.scale : ℕ) : ℚ) ≤ 2 ^ 96 / 10 := by
    have hless : d.coefficient / 10 ^ d.scale * 10 ≤ 2 ^ 96 := by
      calc d.coefficient / 10 ^ d.scale * 10 ≤ d.coefficient / 10 ^ d.scale * 10 ^ d.scale := by
            gcongr
        _ ≤ d.coefficient := Nat.div_mul_le_self _ _
        _ ≤ 2 ^ 96 := hcoefficient.le
    rw [le_div_iff₀ (by norm_num)]
    exact_mod_cast hless
  have hwithin : IsWithin (ofRatio false (d.coefficient / 10 ^ d.scale) 1)
      (5 / 4 * (2 ^ 96 / 10) + 1) := by
    refine ofRatio_isWithin false Nat.one_pos ?_ ?_
    · rwa [Nat.cast_one, div_one]
    · norm_num
  have hbelow : ∀ x : Binary64, x.IsWithin (2 ^ 95) → x.magnitude < topMagnitude := by
    intro x hx
    rw [← not_le, top_le_iff, not_le]
    exact hx.distance_le.trans_lt (by norm_num)
  have hneg : ∀ x : Binary64,
      (if d.negative then x.neg else x).magnitude = x.magnitude := by
    intro x
    split
    · exact magnitude_ofMagnitude x.magnitude_lt
    · rfl
  rw [toBinary, if_neg hpos]
  dsimp only
  rw [hneg]
  refine hbelow _ ?_
  split
  · exact hwithin.mono (by norm_num)
  · have hfraction := fraction_isWithin
      (Nat.mod_lt d.coefficient (Nat.pow_pos (n := d.scale) (by decide : 0 < 10))) hunit
    have hsum := addMagnitudes_isWithin hwithin hfraction (by norm_num)
    obtain ⟨hpower, hone⟩ := binaryPower_bounds hscale
    exact (rounded_isWithin hsum (by norm_num) hpower hone).mono (by norm_num)

end Decimal

/-- The numbers from here on are rounded to `2 ^ 96`. -/
def cutFrom : ℚ := 2 ^ 96 - 2 ^ 42

/-- An exact number beside numbers that are beyond all decimals. -/
def cut (q : ℚ) : ℚ := if cutFrom ≤ q then 2 ^ 96 else if q ≤ -cutFrom then -2 ^ 96 else q

/-- Numbers not cut off are as they were. -/
theorem cut_of_mem {q : ℚ} (hlow : -cutFrom < q) (hhigh : q < cutFrom) : cut q = q := by
  rw [cut, if_neg (not_le.mpr hhigh), if_neg (not_le.mpr hlow)]

namespace Binary64

open Number (signed)

/-- A binary number stands for an exact one, as far as numbers from `2 ^ 96` on
can tell. -/
structure IsCut (y : Binary64) (q : ℚ) : Prop where
  magnitude_le : y.magnitude ≤ topMagnitude
  top_iff : y.place = topMagnitude ↔ cutFrom ≤ q
  bottom_iff : y.place = -topMagnitude ↔ q ≤ -cutFrom

variable {x y : Binary64} {q : ℚ}

/-- What stands for an exact number is a number. -/
theorem IsCut.isNaN (h : y.IsCut q) : y.isNaN = false := by
  have hbelow : topMagnitude ≤ infiniteMagnitude := by decide
  exact decide_eq_false (not_lt.mpr (h.magnitude_le.trans hbelow))

/-- The words at the top stand for `2 ^ 96` with their signs. -/
theorem number_top (negative : Bool) :
    (ofMagnitude negative topMagnitude).number = signed negative (2 ^ 96) := by
  have hword : topMagnitude < signWeight := by decide
  rw [number, isNegative_ofMagnitude hword, distance_eq, magnitude_ofMagnitude hword,
    distanceAt_top]

/-- The words at the top are the last ones on both sides of the line. -/
theorem place_top (negative : Bool) :
    (ofMagnitude negative topMagnitude).place =
      if negative then -(topMagnitude : ℤ) else topMagnitude := by
  have hword : topMagnitude < signWeight := by decide
  rw [place, isNegative_ofMagnitude hword, magnitude_ofMagnitude hword]

/-- The words from the top on stand for numbers from `2 ^ 96` on. -/
theorem top_le_place : (topMagnitude : ℤ) ≤ x.place ↔ 2 ^ 96 ≤ x.number := by
  have hlt := number_lt_iff (x := x) (y := ofMagnitude false topMagnitude)
  rw [number_top, place_top] at hlt
  exact not_lt.symm.trans ((not_congr hlt).symm.trans not_lt)

/-- The words from the bottom on stand for numbers up to `-2 ^ 96`. -/
theorem place_le_bottom : x.place ≤ -topMagnitude ↔ x.number ≤ -2 ^ 96 := by
  have hlt := number_lt_iff (x := ofMagnitude true topMagnitude) (y := x)
  rw [number_top, place_top] at hlt
  exact not_lt.symm.trans ((not_congr hlt).symm.trans not_lt)

/-- The words from that of `2 ^ 96` on, with their signs. -/
theorem number_beyond (hx : topMagnitude ≤ x.magnitude) :
    2 ^ 96 ≤ x.number ∨ x.number ≤ -2 ^ 96 := by
  rw [← top_le_place, ← place_le_bottom]
  rw [← natAbs_place] at hx
  omega

/-- **Comparisons with numbers from `2 ^ 96` on.** -/
theorem IsCut.compare_eq (hy : y.IsCut q) (hx : topMagnitude ≤ x.magnitude) :
    compare x.place y.place = compare x.number (cut q) := by
  by_cases htop : cutFrom ≤ q
  · have hplace := compare_place x (ofMagnitude false topMagnitude)
    rw [place_top, number_top] at hplace
    rw [cut, if_pos htop, hy.top_iff.mpr htop]
    exact hplace
  by_cases hbottom : q ≤ -cutFrom
  · have hplace := compare_place x (ofMagnitude true topMagnitude)
    rw [place_top, number_top] at hplace
    rw [cut, if_neg htop, if_pos hbottom, hy.bottom_iff.mpr hbottom]
    exact hplace
  rw [cut_of_mem (not_le.mp hbottom) (not_le.mp htop)]
  have htop' := mt hy.top_iff.mp htop
  have hbottom' := mt hy.bottom_iff.mp hbottom
  have hmagnitude := hy.magnitude_le
  rw [← natAbs_place] at hx hmagnitude
  rw [cutFrom, not_le] at htop hbottom
  rcases le_or_gt 0 x.place with hpositive | hnegative
  · have hnumber := top_le_place (x := x).mp (by omega)
    rw [compare_gt_iff_gt.mpr (by omega : y.place < x.place), eq_comm, compare_gt_iff_gt]
    linarith
  · have hnumber := place_le_bottom (x := x).mp (by omega)
    rw [compare_lt_iff_lt.mpr (by omega : x.place < y.place), eq_comm, compare_lt_iff_lt]
    linarith

/-- **Whole numbers below `2 ^ 96`**, as they are rounded. -/
theorem ofInt_isCut {n : ℤ} (h : n.natAbs < 2 ^ 96) : (ofInt n).IsCut n := by
  obtain ⟨hsign, hmagnitude, htop⟩ := ofRatio_top (decide (n < 0)) h
  have hpos : 0 < topMagnitude := by decide
  have hhigh : cutFrom ≤ n ↔ 2 ^ 96 - 2 ^ 42 ≤ n := by
    rw [cutFrom]
    exact_mod_cast Iff.rfl
  have hlow : n ≤ -cutFrom ↔ n ≤ -(2 ^ 96 - 2 ^ 42) := by
    rw [cutFrom]
    exact_mod_cast Iff.rfl
  refine ⟨hmagnitude, ?_, ?_⟩
  · rw [hhigh, ofInt, place, hsign]
    generalize ofRatio (decide (n < 0)) n.natAbs 1 = y at *
    by_cases hnegative : n < 0
    · simp only [hnegative, decide_true, if_true]
      omega
    · simp only [hnegative, decide_false, Bool.false_eq_true, if_false]
      omega
  · rw [hlow, ofInt, place, hsign]
    generalize ofRatio (decide (n < 0)) n.natAbs 1 = y at *
    by_cases hnegative : n < 0
    · simp only [hnegative, decide_true, if_true]
      omega
    · simp only [hnegative, decide_false, Bool.false_eq_true, if_false]
      omega

/-- **Decimals**, as they are made binary numbers. -/
theorem toBinary_isCut {d : Decimal} (hcoefficient : d.coefficient < Decimal.bound)
    (hscale : d.scale ≤ Decimal.maxScale) : d.toBinary.IsCut d.number := by
  by_cases hwhole : d.scale = 0
  · have hnatAbs : d.signed.natAbs < 2 ^ 96 := by
      have hsigned : d.signed.natAbs = d.coefficient := by
        rw [Decimal.signed]
        split
        · rw [Int.natAbs_neg, Int.natAbs_natCast]
        · rw [Int.natAbs_natCast]
      rw [hsigned]
      exact hcoefficient
    rw [Decimal.toBinary, if_pos hwhole, Decimal.number_eq, hwhole, pow_zero, div_one]
    exact ofInt_isCut hnatAbs
  · have hbelow := Decimal.toBinary_below hcoefficient hwhole hscale
    have hnatAbs := natAbs_place d.toBinary
    have hnumber : |d.number| ≤ 2 ^ 96 / 10 := by
      have hlarge : (10 : ℚ) ≤ 10 ^ d.scale := le_self_pow₀ (by norm_num) hwhole
      have hless : (d.coefficient : ℚ) ≤ 2 ^ 96 := by exact_mod_cast hcoefficient.le
      rw [Decimal.number, Number.abs_signed, abs_of_nonneg d.distance_nonneg, Decimal.distance]
      gcongr
    obtain ⟨hlow, hhigh⟩ := abs_le.mp hnumber
    refine ⟨hbelow.le, ?_, ?_⟩
    · refine iff_of_false (by omega) ?_
      rw [cutFrom, not_le]
      linarith
    · refine iff_of_false (by omega) ?_
      rw [cutFrom, not_le]
      linarith

end Binary64

end FilterQuery
