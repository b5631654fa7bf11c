import FilterQuery.Proofs.BinaryDecimals
import FilterQuery.Proofs.BinaryOrder

/-!
# Decimals in the order of binary numbers

The decimal of a binary number is rounded more than once: digits are dropped one
by one, each after the next one has been rounded to it.  To round up so takes
four ninths of a unit, wherever the dropping begins, so that what is left
depends only on the number and on how many digits are kept.  Fewer are kept of a
larger number.  It follows that the conversion keeps the order, although it may
give one decimal for several binary numbers.
-/

namespace FilterQuery.Decimal

/-- The digits of a number up to so many behind the point, as they are after all
others have been dropped one by one. -/
def digitsAt (scale : ℕ) (q : ℚ) : ℕ := ⌊q * 10 ^ scale + 5 / 9⌋₊

variable {p q p' q' : ℚ} {k l n : ℕ}

/-- The digits are the whole part of the number at the scale with five ninths
added: a fraction from four ninths on is rounded up, digit by digit from
behind. -/
theorem digitsAt_bounds (hq : 0 ≤ q) (scale : ℕ) :
    (digitsAt scale q : ℚ) ≤ q * 10 ^ scale + 5 / 9 ∧
      q * 10 ^ scale + 5 / 9 < digitsAt scale q + 1 :=
  ⟨Nat.floor_le (by positivity), Nat.lt_floor_add_one _⟩

/-- The digits are the only number between these bounds. -/
theorem digitsAt_eq (hlow : (n : ℚ) ≤ q * 10 ^ k + 5 / 9) (hhigh : q * 10 ^ k + 5 / 9 < n + 1) :
    digitsAt k q = n :=
  (Nat.floor_eq_iff ((Nat.cast_nonneg n).trans hlow)).mpr ⟨hlow, hhigh⟩

/-- A number that has no more digits. -/
theorem digitsAt_whole (h : q * 10 ^ k = n) : digitsAt k q = n :=
  digitsAt_eq (by linarith) (by linarith)

/-- A greater number has no fewer digits. -/
theorem digitsAt_mono (h : q ≤ q') (k : ℕ) : digitsAt k q ≤ digitsAt k q' := by
  have hscaled : q * 10 ^ k ≤ q' * 10 ^ k := by gcongr
  exact Nat.floor_mono (by linarith)

/-- A greater scale has no fewer digits. -/
theorem digitsAt_le (hq : 0 ≤ q) (h : k ≤ l) : digitsAt k q ≤ digitsAt l q := by
  have hpower : (10 : ℚ) ^ k ≤ 10 ^ l := pow_le_pow_right₀ (by norm_num) h
  have hscaled : q * 10 ^ k ≤ q * 10 ^ l := by gcongr
  exact Nat.floor_mono (by linarith)

/-- The last digit rounds the next one up from five on. -/
theorem dropDigit_bounds (n : ℕ) : 10 * dropDigit n ≤ n + 5 ∧ n ≤ 10 * dropDigit n + 4 := by
  rw [dropDigit]
  split
  · omega
  · omega

/-- **Dropping one more digit.** -/
theorem dropDigit_digitsAt (hq : 0 ≤ q) (k : ℕ) :
    dropDigit (digitsAt (k + 1) q) = digitsAt k q := by
  obtain ⟨hlow, hhigh⟩ := digitsAt_bounds hq (k + 1)
  obtain ⟨hdown, hup⟩ := dropDigit_bounds (digitsAt (k + 1) q)
  have hdown' : 10 * (dropDigit (digitsAt (k + 1) q) : ℚ) ≤ digitsAt (k + 1) q + 5 := by
    exact_mod_cast hdown
  have hup' : (digitsAt (k + 1) q : ℚ) ≤ 10 * dropDigit (digitsAt (k + 1) q) + 4 := by
    exact_mod_cast hup
  rw [pow_succ] at hlow hhigh
  refine (digitsAt_eq ?_ ?_).symm
  · linarith
  · linarith

namespace Scaled

/-- The digits of a number up to a scale, under conversion. -/
def digits (k : ℕ) (q : ℚ) : Scaled := ⟨digitsAt k q, -k, 0⟩

/-- The number of the digits is the quotient by a power of ten. -/
theorem number_digits (k : ℕ) (q : ℚ) : (digits k q).number = digitsAt k q / 10 ^ k := by
  rw [digits, number, zpow_zero, mul_one, zpow_neg, zpow_natCast, div_eq_mul_inv]

/-- The digits without the last one, rounded half up, are those at the scale
before. -/
theorem digits_succ (hq : 0 ≤ q) (k : ℕ) :
    { digits (k + 1) q with
      value := dropDigit (digits (k + 1) q).value
      tens := (digits (k + 1) q).tens + 1 } = digits k q := by
  have htens : -((k + 1 : ℕ) : ℤ) + 1 = -k := by omega
  simp only [digits, dropDigit_digitsAt hq, htens]

/-- **Dropping the digits that the scale has no room for** ends at the largest
scale, or with nothing if there is no digit up to there. -/
theorem fitScale_digits (hq : 0 ≤ q) (fuel : ℕ) : ∀ k, 28 ≤ k → k ≤ fuel + 28 →
    ((digits k q).fitScale fuel = digits 28 q ∧ (k = 28 ∨ 10 ≤ digitsAt 29 q)) ∨
      ((digits k q).fitScale fuel = ⟨0, 0, 0⟩ ∧ digitsAt 29 q < 10) := by
  induction fuel with
  | zero =>
      intro k hk hfuel
      obtain rfl : k = 28 := by omega
      exact .inl ⟨rfl, .inl rfl⟩
  | succ fuel ih =>
      intro k hk hfuel
      by_cases hlast : k = 28
      · subst hlast
        exact .inl ⟨fitScale_of_ge _ (by simp [digits]), .inl rfl⟩
      · obtain ⟨k, rfl⟩ : ∃ l, k = l + 1 := ⟨k - 1, by omega⟩
        have hroom : (digits (k + 1) q).tens < -(maxScale : ℤ) := by
          simp only [digits, maxScale]
          omega
        have hless : digitsAt 29 q ≤ digitsAt (k + 1) q := digitsAt_le hq (by omega)
        rw [fitScale, if_pos hroom]
        split
        · next hsmall =>
            refine .inr ⟨fitScale_of_ge fuel (by simp), ?_⟩
            exact lt_of_le_of_lt hless hsmall
        · next hlarge =>
            rw [digits_succ hq]
            refine (ih k (by omega) (by omega)).imp_left fun h => ⟨h.1, .inr ?_⟩
            rcases h.2 with rfl | h
            · exact not_lt.mp hlarge
            · exact h

/-- **Dropping the digits that a binary number does not vouch for** ends where
few enough are left. -/
theorem fitPrecision_digits (hq : 0 ≤ q) (fuel : ℕ) : ∀ k ≤ fuel,
    ∃ j ≤ k, (digits k q).fitPrecision fuel = digits j q ∧ (j = 0 ∨ digitsAt j q < 2 ^ 52) ∧
      (j = k ∨ 2 ^ 52 ≤ digitsAt (j + 1) q) := by
  induction fuel with
  | zero =>
      intro k hk
      obtain rfl : k = 0 := by omega
      exact ⟨0, le_rfl, rfl, .inl rfl, .inl rfl⟩
  | succ fuel ih =>
      intro k hk
      rw [fitPrecision]
      split
      · next hlong =>
          obtain ⟨hpoint, hvalue⟩ := hlong
          rw [Binary64.exponentWeight] at hvalue
          obtain ⟨k, rfl⟩ : ∃ l, k = l + 1 := by
            refine ⟨k - 1, ?_⟩
            simp only [digits] at hpoint
            omega
          rw [digits_succ hq]
          obtain ⟨j, hj, heq, hshort, hmore⟩ := ih k (by omega)
          refine ⟨j, by omega, heq, hshort, .inr ?_⟩
          rcases hmore with rfl | hmore
          · exact hvalue
          · exact hmore
      · next hshort =>
          refine ⟨k, le_rfl, rfl, ?_, .inl rfl⟩
          rw [Binary64.exponentWeight] at hshort
          simp only [digits] at hshort
          omega

end Scaled

/-- A number is rounded to this one at a scale: there are few enough digits, and
one more would be too many, unless there is no room for it or nothing has been
dropped. -/
structure RoundsAt (scale : ℕ) (q p : ℚ) : Prop where
  scale_le : scale ≤ 28
  value : p = digitsAt scale q / 10 ^ scale
  short : scale = 0 ∨ digitsAt scale q < 2 ^ 52
  long : p = q ∨ scale = 28 ∨ 2 ^ 52 ≤ digitsAt (scale + 1) q

/-- A number is rounded to this one: to nothing if it is too small, or else at
some scale. -/
def RoundsTo (q p : ℚ) : Prop :=
  p = 0 ∧ digitsAt 29 q < 10 ∨ 10 ≤ digitsAt 29 q ∧ ∃ scale, RoundsAt scale q p

/-- What is rounded at a scale is not negative. -/
theorem RoundsAt.nonneg (h : RoundsAt k q p) : 0 ≤ p := by
  rw [h.value]
  positivity

/-- What is not rounded at a scale has no digits behind it. -/
theorem RoundsAt.digits_of_exact (h : RoundsAt k q p) (hexact : p = q) (hkl : k ≤ l) :
    q * 10 ^ l = digitsAt l q := by
  obtain ⟨j, rfl⟩ : ∃ j, l = k + j := ⟨l - k, by omega⟩
  have hscaled : q * 10 ^ k = digitsAt k q :=
    (eq_div_iff (by positivity)).mp (hexact.symm.trans h.value)
  have hwhole : q * 10 ^ (k + j) = (digitsAt k q * 10 ^ j : ℕ) := by
    rw [pow_add, ← mul_assoc, hscaled]
    push_cast
    rfl
  rw [digitsAt_whole hwhole, hwhole]

/-- **Rounding keeps the order**, also where fewer digits of the larger number
are kept. -/
theorem RoundsAt.mono (hq : 0 ≤ q) (h : RoundsAt k q p) (h' : RoundsAt l q' p') (hle : q ≤ q') :
    p ≤ p' := by
  have hpower : (0 : ℚ) < 10 ^ k := by positivity
  have hpower' : (0 : ℚ) < 10 ^ l := by positivity
  rcases lt_trichotomy k l with hkl | rfl | hlk
  · -- Of the smaller number fewer digits are kept, so that it is not rounded.
    have hdigits : digitsAt l q ≤ digitsAt l q' := digitsAt_mono hle l
    have hshort : digitsAt l q' < 2 ^ 52 := h'.short.resolve_left (by omega)
    rcases h.long with hexact | hlast | hlong
    · have hwhole := h.digits_of_exact hexact hkl.le
      rw [hexact, h'.value, le_div_iff₀ hpower', hwhole]
      exact_mod_cast hdigits
    · have hscale := h'.scale_le
      omega
    · have hmore : digitsAt (k + 1) q ≤ digitsAt l q := digitsAt_le hq hkl
      omega
  · rw [h.value, h'.value]
    have hdigits : (digitsAt k q : ℚ) ≤ digitsAt k q' := by exact_mod_cast digitsAt_mono hle k
    gcongr
  · -- Of the larger number fewer digits are kept.
    have hshort : digitsAt k q < 2 ^ 52 := h.short.resolve_left (by omega)
    rcases h'.long with hexact | hlast | hlong
    · have hwhole := h'.digits_of_exact hexact hlk.le
      have hdigits : (digitsAt k q : ℚ) ≤ digitsAt k q' := by exact_mod_cast digitsAt_mono hle k
      rw [hexact, h.value, div_le_iff₀ hpower, hwhole]
      exact hdigits
    · have hscale := h.scale_le
      omega
    · have hkept : 2 ^ 52 ≤ 10 * digitsAt l q' := by
        rw [← dropDigit_digitsAt (hq.trans hle)]
        have hdrop := dropDigit_bounds (digitsAt (l + 1) q')
        omega
      have hkept' : (2 : ℚ) ^ 52 ≤ 10 * digitsAt l q' := by exact_mod_cast hkept
      have hshort' : (digitsAt k q : ℚ) ≤ 2 ^ 52 := by exact_mod_cast hshort.le
      have hunits : (10 : ℚ) ^ (l + 1) ≤ 10 ^ k := pow_le_pow_right₀ (by norm_num) hlk
      calc p = digitsAt k q / 10 ^ k := h.value
        _ ≤ 2 ^ 52 / 10 ^ (l + 1) := by gcongr
        _ ≤ 10 * digitsAt l q' / 10 ^ (l + 1) := by gcongr
        _ = p' := by
          rw [h'.value, pow_succ]
          field_simp

/-- Rounding keeps the order of numbers. -/
theorem RoundsTo.mono (hq : 0 ≤ q) (h : RoundsTo q p) (h' : RoundsTo q' p') (hle : q ≤ q') :
    p ≤ p' := by
  rcases h with ⟨rfl, -⟩ | ⟨hdigit, scale, h⟩
  · rcases h' with ⟨rfl, -⟩ | ⟨-, scale', h'⟩
    · exact le_rfl
    · exact h'.nonneg
  · rcases h' with ⟨-, hnone⟩ | ⟨-, scale', h'⟩
    · have hdigits := digitsAt_mono hle 29
      omega
    · exact h.mono hq h' hle

/-- A number up to a whole one is not rounded beyond this. -/
theorem RoundsTo.le_whole (h : RoundsTo q p) (hle : q ≤ n) : p ≤ n := by
  rcases h with ⟨rfl, -⟩ | ⟨-, scale, h⟩
  · exact Nat.cast_nonneg n
  · have hwhole : digitsAt scale (n : ℚ) = n * 10 ^ scale := digitsAt_whole (by push_cast; rfl)
    have hdigits : digitsAt scale q ≤ n * 10 ^ scale := hwhole ▸ digitsAt_mono hle scale
    have hdigits' : (digitsAt scale q : ℚ) ≤ n * 10 ^ scale := by exact_mod_cast hdigits
    rw [h.value, div_le_iff₀ (by positivity)]
    exact hdigits'

/-- **The last steps of the conversion are a rounding**, of any number that is
not zero. -/
theorem Scaled.trim_roundsTo {s : Scaled} (hfives : s.fives = 0) (htens : s.tens ≤ 0)
    (hlow : -1074 ≤ s.tens) (hpos : 0 < s.value) : RoundsTo s.number s.trim.number := by
  obtain ⟨k, hk⟩ : ∃ k : ℕ, s.tens = -k := ⟨(-s.tens).toNat, by omega⟩
  have hnumber : s.number = s.value / 10 ^ k := by
    rw [number, hfives, hk, zpow_zero, mul_one, zpow_neg, zpow_natCast, div_eq_mul_inv]
  set q := s.number with hq
  have hnonneg : 0 ≤ q := s.number_nonneg
  have hscaled : q * 10 ^ k = s.value := by
    rw [hnumber, div_mul_cancel₀ _ (by positivity)]
  have hdigits : s = digits k q := by
    obtain ⟨value, tens, fives⟩ := s
    dsimp only at hk hfives hscaled
    rw [digits, digitsAt_whole hscaled, hk, hfives]
  have hstrip : ∀ (j : ℕ) (q' : ℚ), ((digits j q').stripZeros 100).number =
      digitsAt j q' / 10 ^ j := by
    intro j q'
    rw [(stripZeros_number 100 _ (by simp [digits])).1, number_digits]
  rw [trim, hdigits]
  rcases le_or_gt k 28 with hsmall | hlarge
  · obtain ⟨j, hj, hfit, hshort, hmore⟩ := fitPrecision_digits hnonneg 100 k (by omega)
    rw [fitScale_of_ge _ (by simp only [digits]; omega), hfit, hstrip]
    refine .inr ⟨?_, j, by omega, rfl, hshort, ?_⟩
    · have hpower : (10 : ℚ) ^ 29 = 10 ^ k * 10 ^ (29 - k) := by
        rw [← pow_add]
        congr 1
        omega
      have hwhole : digitsAt 29 q = s.value * 10 ^ (29 - k) := by
        refine digitsAt_whole ?_
        rw [hpower, ← mul_assoc, hscaled]
        push_cast
        rfl
      have hten : 10 ≤ 10 ^ (29 - k) := Nat.le_self_pow (by omega) 10
      rw [hwhole]
      exact Nat.mul_le_mul hpos hten
    · rcases hmore with rfl | hmore
      · refine .inl ?_
        rw [div_eq_iff (by positivity), digitsAt_whole hscaled, hscaled]
      · exact .inr (.inr hmore)
  · rcases fitScale_digits hnonneg 1200 k hlarge.le (by omega) with ⟨hfit, hten⟩ | ⟨hfit, hnone⟩
    · obtain ⟨j, hj, hfit', hshort, hmore⟩ := fitPrecision_digits hnonneg 100 28 (by omega)
      rw [hfit, hfit', hstrip]
      exact .inr ⟨hten.resolve_left (by omega), j, hj, rfl, hshort, .inr hmore⟩
    · refine .inl ⟨?_, hnone⟩
      rw [hfit, fitPrecision, if_neg (by simp), stripZeros, if_neg (by simp)]
      simp [number]

open Binary64

section OfBinary

variable {x y : Binary64} {d e : Decimal}

/-- A decimal has no negative distance from zero. -/
theorem distance_nonneg (d : Decimal) : 0 ≤ d.distance := by
  rw [distance]
  positivity

/-- Small numbers are rounded after their fives have been multiplied in. -/
theorem roundsTo_of_ofBinary? (hfinite : x.isFinite = true) (hzero : x.isZero = false)
    (hexponent : x.exponent ≤ 0) (hd : ofBinary? x = some d) :
    RoundsTo (expanded x).number d.distance := by
  obtain ⟨hfives, htens, hlow, -, hlost⟩ := expanded_near hfinite hexponent
  have hpos : 0 < (expanded x).value := by
    refine Nat.pos_of_ne_zero fun hnone => ?_
    have hdistance := distance_pos hzero
    rw [Scaled.number, hnone] at hlost
    norm_num at hlost
    linarith
  obtain ⟨hfives', htens', -⟩ := Scaled.trim_near hfives htens hlow
  rw [ofBinary?_of_nonpos hfinite hzero hexponent, Option.some_inj] at hd
  rw [← hd, Scaled.distance_toDecimal _ hfives' htens']
  exact Scaled.trim_roundsTo hfives htens hlow hpos

/-- Large numbers keep their distance from zero. -/
theorem distance_of_ofBinary? (hfinite : x.isFinite = true) (hzero : x.isZero = false)
    (hexponent : 0 < x.exponent) (hd : ofBinary? x = some d) :
    d.distance = x.distance ∧ x.distance < 2 ^ 96 := by
  rcases ofBinary?_of_pos hfinite hzero hexponent with ⟨n, hn, hdistance, hfits⟩ | ⟨hnone, -⟩
  · obtain rfl := Option.some.inj (hn.symm.trans hd)
    have hfits' : (n : ℚ) < 2 ^ 96 := by
      rw [bound] at hfits
      exact_mod_cast hfits
    refine ⟨?_, hdistance ▸ hfits'⟩
    rw [← hdistance, distance]
    simp
  · cases hnone.symm.trans hd

/-- What multiplying the fives in loses is less than what lies between two
numbers. -/
theorem expanded_mono (hx : x.isFinite = true) (hy : y.isFinite = true) (hx' : x.exponent ≤ 0)
    (hy' : y.exponent ≤ 0) (h : x.magnitude ≤ y.magnitude) :
    (expanded x).number ≤ (expanded y).number := by
  rcases h.lt_or_eq with hlt | heq
  · obtain ⟨-, -, -, hle, -⟩ := expanded_near hx hx'
    obtain ⟨-, -, -, -, hlost⟩ := expanded_near hy hy'
    have hgap := distance_gap hlt
    have hnonneg := y.distance_nonneg
    have hparts : y.distance / 2 ^ 82 ≤ y.distance / 2 ^ 53 := by
      gcongr
      · norm_num
      · norm_num
    linarith
  · obtain ⟨hmantissa, hexponent⟩ := parts_of_magnitude heq
    rw [expanded, expanded, hmantissa, hexponent]

/-- **The conversion keeps the order of the distances from zero.** -/
theorem ofBinary?_distance_mono (hx : x.isFinite = true) (hy : y.isFinite = true)
    (hd : ofBinary? x = some d) (he : ofBinary? y = some e) (h : x.magnitude ≤ y.magnitude) :
    d.distance ≤ e.distance := by
  have hle : x.distance ≤ y.distance := by
    rw [← not_lt, distance_lt_iff]
    exact not_lt.mpr h
  cases hxzero : x.isZero with
  | true =>
      obtain rfl := Option.some.inj ((ofBinary?_of_isZero hxzero hx).symm.trans hd)
      simpa [distance] using e.distance_nonneg
  | false =>
      have hpos := distance_pos hxzero
      have hyzero : y.isZero = false := by
        refine eq_false_of_ne_true fun hzero => ?_
        rw [distance_of_isZero hzero] at hle
        exact absurd hpos (not_lt.mpr hle)
      rcases le_or_gt x.exponent 0 with hsmall | hlarge
      · have hrounds := roundsTo_of_ofBinary? hx hxzero hsmall hd
        rcases le_or_gt y.exponent 0 with hsmall' | hlarge'
        · exact hrounds.mono (expanded x).number_nonneg
            (roundsTo_of_ofBinary? hy hyzero hsmall' he) (expanded_mono hx hy hsmall hsmall' h)
        · obtain ⟨-, -, -, hexpanded, -⟩ := expanded_near hx hsmall
          have hbelow := distance_lt_of_exponent hsmall
          have habove := le_distance_of_exponent hlarge'
          have hwhole : d.distance ≤ ((2 ^ 53 : ℕ) : ℚ) := by
            refine hrounds.le_whole ?_
            push_cast
            linarith
          push_cast at hwhole
          rw [(distance_of_ofBinary? hy hyzero hlarge' he).1]
          linarith
      · rcases le_or_gt y.exponent 0 with hsmall' | hlarge'
        · have hbelow := distance_lt_of_exponent hsmall'
          have habove := le_distance_of_exponent hlarge
          linarith
        · rw [(distance_of_ofBinary? hx hxzero hlarge hd).1,
            (distance_of_ofBinary? hy hyzero hlarge' he).1]
          exact hle

/-- **The numbers with a decimal are those below `2 ^ 96`.** -/
theorem ofBinary?_eq_none : ofBinary? x = none ↔ topMagnitude ≤ x.magnitude := by
  cases hfinite : x.isFinite with
  | false =>
      refine iff_of_true (by simp [ofBinary?, hfinite]) ?_
      rw [isFinite, decide_eq_false_iff_not, not_lt] at hfinite
      have htop : topMagnitude ≤ infiniteMagnitude := by decide
      exact htop.trans hfinite
  | true =>
      rw [top_le_iff]
      refine ⟨ofBinary?_none hfinite, fun hdistance => ?_⟩
      have hzero : x.isZero = false := by
        refine eq_false_of_ne_true fun hzero => ?_
        rw [distance_of_isZero hzero] at hdistance
        norm_num at hdistance
      have hexponent : 0 < x.exponent := by
        by_contra hsmall
        have hbelow := distance_lt_of_exponent (not_lt.mp hsmall)
        norm_num at hbelow hdistance
        linarith
      refine Option.eq_none_iff_forall_ne_some.mpr fun d hd => ?_
      have hbelow := (distance_of_ofBinary? hfinite hzero hexponent hd).2
      exact absurd hdistance (not_le.mpr hbelow)

/-- Decimals of binary numbers are not close to `2 ^ 96`. -/
theorem ofBinary?_distance_le (hd : ofBinary? x = some d) : d.distance ≤ 2 ^ 96 - 2 ^ 43 := by
  have hsome : ofBinary? x ≠ none := by simp [hd]
  have hbelow : x.magnitude < topMagnitude := not_le.mp (mt ofBinary?_eq_none.mpr hsome)
  have hfinite : x.isFinite = true := by
    rw [isFinite, decide_eq_true_eq]
    exact hbelow.trans_le (by decide)
  cases hzero : x.isZero with
  | true =>
      obtain rfl := Option.some.inj ((ofBinary?_of_isZero hzero hfinite).symm.trans hd)
      norm_num [distance]
  | false =>
      rcases le_or_gt x.exponent 0 with hsmall | hlarge
      · obtain ⟨-, -, -, hexpanded, -⟩ := expanded_near hfinite hsmall
        have hlt := distance_lt_of_exponent hsmall
        have hwhole : d.distance ≤ ((2 ^ 53 : ℕ) : ℚ) := by
          refine (roundsTo_of_ofBinary? hfinite hzero hsmall hd).le_whole ?_
          push_cast
          linarith
        refine hwhole.trans ?_
        norm_num
      · rw [(distance_of_ofBinary? hfinite hzero hlarge hd).1]
        exact distance_le_of_lt_top hbelow

/-- A binary number with a decimal is finite. -/
theorem isFinite_of_ofBinary? (hd : ofBinary? x = some d) : x.isFinite = true := by
  refine eq_true_of_ne_false fun hinfinite => ?_
  rw [ofBinary?, hinfinite] at hd
  cases hd

/-- The decimal of a binary number is in the range of decimals, with some room
to its end. -/
theorem abs_number_le (hd : ofBinary? x = some d) : |d.number| ≤ 2 ^ 96 - 2 ^ 43 := by
  rw [number, Number.abs_signed, abs_of_nonneg d.distance_nonneg]
  exact ofBinary?_distance_le hd

/-- **The conversion keeps the order**, though not every difference. -/
theorem ofBinary?_mono (hd : ofBinary? x = some d) (he : ofBinary? y = some e)
    (h : x.place ≤ y.place) : d.number ≤ e.number := by
  have hx := isFinite_of_ofBinary? hd
  have hy := isFinite_of_ofBinary? he
  have hmono := ofBinary?_distance_mono hx hy hd he
  have hmono' := ofBinary?_distance_mono hy hx he hd
  have hdsign := (ofBinary?_near hx hd).1
  have hesign := (ofBinary?_near hy he).1
  have hdpos := d.distance_nonneg
  have hepos := e.distance_nonneg
  rw [number, number, hdsign, hesign, Number.signed, Number.signed]
  rw [place, place] at h
  cases hxnegative : x.isNegative with
  | true =>
      cases hynegative : y.isNegative with
      | true =>
          simp only [hxnegative, hynegative, if_true] at h ⊢
          have hless := hmono' (by omega)
          linarith
      | false =>
          simp only [Bool.false_eq_true, if_true, if_false]
          linarith
  | false =>
      cases hynegative : y.isNegative with
      | true =>
          -- Both are zero.
          simp only [hxnegative, hynegative, if_true, Bool.false_eq_true, if_false] at h ⊢
          have hzero : y.isZero = true := by
            rw [isZero, beq_iff_eq]
            omega
          obtain rfl := Option.some.inj ((ofBinary?_of_isZero hzero hy).symm.trans he)
          have hless := hmono (by omega)
          have hnone : distance ⟨y.isNegative, 0, 0⟩ = 0 := by simp [distance]
          rw [hnone] at hless ⊢
          linarith
      | false =>
          simp only [hxnegative, hynegative, Bool.false_eq_true, if_false] at h ⊢
          exact hmono (by omega)

end OfBinary

end FilterQuery.Decimal
