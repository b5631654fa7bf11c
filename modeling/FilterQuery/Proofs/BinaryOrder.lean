import FilterQuery.Proofs.NearestBinary

/-!
# Words in the order of their numbers

Between the words of two neighbouring numbers there is nothing: the mantissa
grows by one, or is carried over into the exponent.  So words are in the order
of the numbers they stand for, an infinity standing for the power of two behind
all finite numbers, and a number is less than the next one by a `2 ^ 53`rd part
of this at least.
-/

namespace FilterQuery.Binary64

open Number (signed)

/-- How far from zero the numbers of a magnitude are. -/
def distanceAt (magnitude : ℕ) : ℚ := (ofMagnitude false magnitude).distance

/-- A magnitude is less than the weight of the sign. -/
theorem magnitude_lt (x : Binary64) : x.magnitude < signWeight :=
  Nat.mod_lt _ (by decide)

/-- The sign has no part in the mantissa and the exponent. -/
theorem parts_of_magnitude {x y : Binary64} (h : x.magnitude = y.magnitude) :
    x.mantissa = y.mantissa ∧ x.exponent = y.exponent := by
  constructor
  · rw [mantissa, mantissa, fractionField, fractionField, exponentField, exponentField, h]
  · rw [exponent, exponent, exponentField, exponentField, h]

/-- The distance of a word is that of its magnitude. -/
theorem distance_eq (x : Binary64) : x.distance = distanceAt x.magnitude := by
  obtain ⟨hmantissa, hexponent⟩ :=
    parts_of_magnitude (x := ofMagnitude false x.magnitude) (magnitude_ofMagnitude x.magnitude_lt)
  rw [distanceAt, distance, distance, hmantissa, hexponent]

theorem distanceAt_nonneg (n : ℕ) : 0 ≤ distanceAt n := distance_nonneg _

theorem distanceAt_zero : distanceAt 0 = 0 := distance_zero false

variable {n m : ℕ}

/-- **The next word.**  Its mantissa is one more, before it is carried over. -/
theorem distanceAt_succ (h : n + 1 < signWeight) :
    ∃ (mantissa : ℕ) (exponent : ℤ), mantissa + 1 ≤ 2 ^ 53 ∧
      distanceAt n = mantissa * 2 ^ exponent ∧
      distanceAt (n + 1) = (mantissa + 1 : ℕ) * 2 ^ exponent := by
  obtain ⟨k, mantissa, rfl, hlt, hleading⟩ : ∃ k mantissa, n = k * exponentWeight + mantissa ∧
      mantissa < 2 ^ 53 ∧ (k = 0 ∨ 2 ^ 52 ≤ mantissa) := by
    rw [exponentWeight]
    by_cases hsmall : n < 2 ^ 52
    · exact ⟨0, n, by omega, by omega, .inl rfl⟩
    · exact ⟨n / 0x10000000000000 - 1, 0x10000000000000 + n % 0x10000000000000, by omega, by omega,
        .inr (by omega)⟩
  have hcarried : mantissa + 1 ≤ 2 ^ 53 := by omega
  have hnext : k = 0 ∨ 2 ^ 52 ≤ mantissa + 1 := by omega
  refine ⟨mantissa, k - 1074, hcarried, ?_, ?_⟩
  · exact distance_ofMagnitude false hlt.le hleading (by omega)
  · rw [Nat.add_assoc] at h ⊢
    exact distance_ofMagnitude false hcarried hnext h

/-- A number is less than a greater one by a part of this. -/
theorem distanceAt_gap (h : n < m) (hm : m < signWeight) :
    distanceAt n ≤ distanceAt m - distanceAt m / 2 ^ 53 := by
  have hnext : ∀ n, n + 1 < signWeight →
      distanceAt n ≤ distanceAt (n + 1) - distanceAt (n + 1) / 2 ^ 53 := by
    intro n hn
    obtain ⟨mantissa, exponent, hmantissa, hthis, hnext⟩ := distanceAt_succ hn
    have hunit : (0 : ℚ) < 2 ^ exponent := by positivity
    have hle : ((mantissa + 1 : ℕ) : ℚ) ≤ 2 ^ 53 := by exact_mod_cast hmantissa
    have hpart : ((mantissa + 1 : ℕ) : ℚ) * 2 ^ exponent / 2 ^ 53 ≤ 2 ^ exponent := by
      rw [div_le_iff₀ (by positivity), mul_comm]
      gcongr
    rw [hthis, hnext]
    push_cast at hpart ⊢
    linarith
  induction m, h using Nat.le_induction with
  | base => exact hnext n hm
  | succ m hnm ih =>
      have hbelow := ih (by omega)
      have hpart : 0 ≤ distanceAt m / 2 ^ 53 := div_nonneg (distanceAt_nonneg m) (by positivity)
      have hlast := hnext m hm
      linarith

/-- Every other magnitude is off zero. -/
theorem distanceAt_pos (h : 0 < n) (hn : n < signWeight) : 0 < distanceAt n := by
  obtain ⟨k, rfl⟩ : ∃ k, n = k + 1 := ⟨n - 1, by omega⟩
  obtain ⟨mantissa, exponent, -, -, hnext⟩ := distanceAt_succ hn
  rw [hnext]
  positivity

/-- A greater magnitude is further off. -/
theorem distanceAt_lt (h : n < m) (hm : m < signWeight) : distanceAt n < distanceAt m := by
  have hgap := distanceAt_gap h hm
  have hpart : 0 < distanceAt m / 2 ^ 53 := div_pos (distanceAt_pos (by omega) hm) (by positivity)
  linarith

/-- A number with a fraction, or a small one. -/
theorem distance_lt_of_exponent {x : Binary64} (h : x.exponent ≤ 0) : x.distance < 2 ^ 53 := by
  have hmantissa : (x.mantissa : ℚ) < 2 ^ 53 := by exact_mod_cast x.mantissa_lt
  have hunit : (2 : ℚ) ^ x.exponent ≤ 1 := zpow_le_one_of_nonpos₀ one_le_two h
  calc x.distance ≤ x.mantissa * 1 := by
        rw [distance]
        gcongr
    _ < 2 ^ 53 := by rwa [mul_one]

/-- A large number. -/
theorem le_distance_of_exponent {x : Binary64} (h : 0 < x.exponent) : 2 ^ 53 ≤ x.distance := by
  have hfield : x.exponentField ≠ 0 := by
    intro hzero
    rw [exponent, if_pos hzero] at h
    omega
  have hmantissa : (2 : ℚ) ^ 52 ≤ x.mantissa := by
    rw [mantissa, if_neg hfield, exponentWeight]
    push_cast
    norm_num
  have hunit : (2 : ℚ) ^ (1 : ℤ) ≤ 2 ^ x.exponent := zpow_le_zpow_right₀ one_le_two h
  calc (2 : ℚ) ^ 53 = 2 ^ 52 * 2 ^ (1 : ℤ) := by norm_num
    _ ≤ (x.mantissa : ℚ) * 2 ^ x.exponent := by gcongr
    _ = x.distance := rfl

/-- The magnitude of `2 ^ 96`, the first whole number beyond all decimals. -/
def topMagnitude : ℕ := 1119 * exponentWeight

/-- The top magnitude is at `2 ^ 96`. -/
theorem distanceAt_top : distanceAt topMagnitude = 2 ^ 96 := by
  have htop : topMagnitude = 1117 * exponentWeight + 2 ^ 53 := by decide
  have hword : 1117 * exponentWeight + 2 ^ 53 < signWeight := by decide
  rw [distanceAt, htop, distance_ofMagnitude false le_rfl (.inr (by norm_num)) hword]
  norm_num

/-- A number below `2 ^ 96` is below it by a unit. -/
theorem distance_le_of_lt_top {x : Binary64} (h : x.magnitude < topMagnitude) :
    x.distance ≤ 2 ^ 96 - 2 ^ 43 := by
  have hgap := distanceAt_gap h (by decide)
  rw [distanceAt_top] at hgap
  rw [distance_eq]
  norm_num at hgap ⊢
  exact hgap

/-- What is not zero is off zero. -/
theorem distance_pos {x : Binary64} (hzero : x.isZero = false) : 0 < x.distance := by
  rw [isZero, beq_eq_false_iff_ne] at hzero
  rw [distance_eq]
  exact distanceAt_pos (by omega) x.magnitude_lt

section Order

variable {x y : Binary64}

/-- **Words without their signs are in the order of the distances from
zero.** -/
theorem distance_lt_iff : x.distance < y.distance ↔ x.magnitude < y.magnitude := by
  rw [distance_eq, distance_eq]
  constructor
  · intro hlt
    by_contra hle
    rcases (not_lt.mp hle).lt_or_eq with hgt | heq
    · exact absurd (distanceAt_lt hgt x.magnitude_lt) (not_lt.mpr hlt.le)
    · rw [heq] at hlt
      exact lt_irrefl _ hlt
  · exact fun hlt => distanceAt_lt hlt y.magnitude_lt

/-- A number further from zero is so by a part of itself. -/
theorem distance_gap (h : x.magnitude < y.magnitude) :
    x.distance ≤ y.distance - y.distance / 2 ^ 53 := by
  rw [distance_eq, distance_eq]
  exact distanceAt_gap h y.magnitude_lt

/-- The number at a place of the line. -/
def numberAt (place : ℤ) : ℚ := signed (decide (place < 0)) (distanceAt place.natAbs)

/-- A word stands for the number at its place. -/
theorem number_eq_numberAt (x : Binary64) : x.number = numberAt x.place := by
  rw [number, numberAt, distance_eq, place]
  cases hnegative : x.isNegative with
  | false =>
      have hnonneg : ¬ (x.magnitude : ℤ) < 0 := by omega
      simp [signed]
  | true =>
      by_cases hzero : x.magnitude = 0
      · simp [hzero, distanceAt_zero, signed]
      · have hpos : 0 < x.magnitude := by omega
        simp [signed, hpos]

/-- Numbers at later places are greater. -/
theorem numberAt_lt {p q : ℤ} (h : p < q) (hp : p.natAbs < signWeight)
    (hq : q.natAbs < signWeight) : numberAt p < numberAt q := by
  rw [numberAt, numberAt]
  rcases lt_or_ge p 0 with hneg | hnonneg
  · have hpos := distanceAt_pos (n := p.natAbs) (by omega) hp
    rcases lt_or_ge q 0 with hneg' | hnonneg'
    · have hlt := distanceAt_lt (n := q.natAbs) (m := p.natAbs) (by omega) hp
      simpa [signed, hneg, hneg'] using hlt
    · have hge := distanceAt_nonneg q.natAbs
      simp only [signed, hneg, not_lt.mpr hnonneg', decide_true, decide_false, if_true]
      rw [if_neg Bool.false_ne_true]
      linarith
  · have hlt := distanceAt_lt (n := p.natAbs) (m := q.natAbs) (by omega) hq
    simpa [signed, not_lt.mpr hnonneg, not_lt.mpr (hnonneg.trans h.le)] using hlt

/-- A place is as far out as the magnitude. -/
theorem natAbs_place (x : Binary64) : x.place.natAbs = x.magnitude := by
  rw [place]
  split
  · omega
  · omega

/-- **Words are in the order of the numbers they stand for.** -/
theorem number_lt_iff : x.number < y.number ↔ x.place < y.place := by
  have hx := x.magnitude_lt
  have hy := y.magnitude_lt
  rw [← natAbs_place] at hx hy
  rw [number_eq_numberAt, number_eq_numberAt]
  rcases lt_trichotomy x.place y.place with h | h | h
  · exact iff_of_true (numberAt_lt h hx hy) h
  · rw [h]
    simp
  · exact iff_of_false (not_lt.mpr (numberAt_lt h hy hx).le) (not_lt.mpr h.le)

/-- **Places are in the order of the numbers.** -/
theorem compare_place (x y : Binary64) : compare x.place y.place = compare x.number y.number := by
  rcases lt_trichotomy x.place y.place with h | h | h
  · rw [compare_lt_iff_lt.mpr h, compare_lt_iff_lt.mpr (number_lt_iff.mpr h)]
  · rw [number_eq_numberAt, number_eq_numberAt, h, compare_eq_iff_eq.mpr rfl,
      compare_eq_iff_eq.mpr rfl]
  · rw [compare_gt_iff_gt.mpr h, compare_gt_iff_gt.mpr (number_lt_iff.mpr h)]

/-- The words from that of `2 ^ 96` on stand for the numbers from there on. -/
theorem top_le_iff : topMagnitude ≤ x.magnitude ↔ 2 ^ 96 ≤ x.distance := by
  have hword : topMagnitude < signWeight := by decide
  have htop : (ofMagnitude false topMagnitude).magnitude = topMagnitude :=
    magnitude_ofMagnitude hword
  have hlt := distance_lt_iff (x := x) (y := ofMagnitude false topMagnitude)
  rw [htop, distance_eq (ofMagnitude false topMagnitude), htop, distanceAt_top] at hlt
  rw [← not_lt, ← hlt, not_lt]

end Order

end FilterQuery.Binary64
