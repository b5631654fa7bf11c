import FilterQuery.Number.Binary64
import Mathlib

/-!
# The number nearest to a fraction

A finite word of the binary format stands for a rational number.  The word that
a fraction is rounded to stands for one within half a unit of the last place,
which is a `2 ^ 53`rd part of the fraction unless this lies close to zero; whole
numbers below `2 ^ 53` are kept as they are, and only numbers beyond all finite
words become infinite.
-/

namespace FilterQuery

/-- A rational number behind a sign. -/
def Number.signed (negative : Bool) (q : ℚ) : ℚ := if negative then -q else q

namespace Number

@[simp] theorem abs_signed (negative : Bool) (q : ℚ) : |signed negative q| = |q| := by
  cases negative <;> simp [signed]

/-- A sign is taken out of a difference. -/
theorem signed_sub (negative : Bool) (p q : ℚ) :
    signed negative p - signed negative q = signed negative (p - q) := by
  cases negative
  · rfl
  · simp only [signed, if_true]
    ring

end Number

namespace Binary64

open Number (signed)

/-- The distance of a finite number from zero.  That of an infinity is the next
power of two. -/
def distance (x : Binary64) : ℚ := x.mantissa * 2 ^ x.exponent

/-- The rational number that a finite word stands for. -/
def number (x : Binary64) : ℚ := signed x.isNegative x.distance

section Magnitude

variable {negative : Bool} {magnitude : ℕ}

/-- A word holds its magnitude below its sign. -/
theorem toNat_ofMagnitude (h : magnitude < signWeight) :
    (ofMagnitude negative magnitude).bits.toNat =
      (if negative then signWeight else 0) + magnitude := by
  rw [signWeight] at h ⊢
  rw [ofMagnitude, UInt64.toNat_ofNat', signWeight]
  refine Nat.mod_eq_of_lt ?_
  split
  · omega
  · omega

/-- A word has the magnitude that it is made from. -/
theorem magnitude_ofMagnitude (h : magnitude < signWeight) :
    (ofMagnitude negative magnitude).magnitude = magnitude := by
  rw [Binary64.magnitude, toNat_ofMagnitude h]
  cases negative with
  | false => simpa using Nat.mod_eq_of_lt h
  | true => simpa using Nat.mod_eq_of_lt h

/-- A word has the sign that it is made with. -/
theorem isNegative_ofMagnitude (h : magnitude < signWeight) :
    (ofMagnitude negative magnitude).isNegative = negative := by
  rw [isNegative, toNat_ofMagnitude h]
  cases negative with
  | false => simpa using h
  | true => simp

end Magnitude

/-- No distance from zero is negative. -/
theorem distance_nonneg (x : Binary64) : 0 ≤ x.distance := by
  rw [distance]
  positivity

/-- Zero has no distance from zero. -/
theorem distance_of_isZero {x : Binary64} (h : x.isZero = true) : x.distance = 0 := by
  rw [isZero, beq_iff_eq] at h
  have hfraction : x.fractionField = 0 := by rw [fractionField, h, Nat.zero_mod]
  have hexponent : x.exponentField = 0 := by rw [exponentField, h, Nat.zero_div]
  rw [distance, mantissa, if_pos hexponent, hfraction]
  simp

/-- The exponent of a finite number is in range. -/
theorem exponent_bounds {x : Binary64} (h : x.isFinite = true) :
    -1074 ≤ x.exponent ∧ x.exponent ≤ 971 := by
  rw [isFinite, decide_eq_true_eq, infiniteMagnitude] at h
  have hfield : x.exponentField < 2047 := by
    rw [exponentField]
    exact Nat.div_lt_of_lt_mul (by rwa [mul_comm])
  rw [exponent]
  split
  · omega
  · omega

/-- A mantissa has 53 bits at most. -/
theorem mantissa_lt (x : Binary64) : x.mantissa < 2 ^ 53 := by
  have hfraction : x.fractionField < exponentWeight := Nat.mod_lt _ (by decide)
  rw [exponentWeight] at hfraction
  rw [mantissa, exponentWeight]
  split
  · omega
  · omega

/-- A mantissa with its leading bit, or without one in front of the lowest
exponent, and the steps from the lowest exponent make up a word.  A mantissa
that has just overflown is carried over. -/
theorem distance_ofMagnitude (negative : Bool) {k m : ℕ} (hm : m ≤ 2 ^ 53)
    (hk : k = 0 ∨ 2 ^ 52 ≤ m) (hword : k * exponentWeight + m < signWeight) :
    (ofMagnitude negative (k * exponentWeight + m)).distance = m * 2 ^ ((k : ℤ) - 1074) := by
  rw [distance, mantissa, exponent, fractionField, exponentField, magnitude_ofMagnitude hword,
    exponentWeight]
  rcases Nat.lt_or_ge m (2 ^ 52) with hsmall | hlarge
  · obtain rfl : k = 0 := by omega
    have hfield : (0 * 0x10000000000000 + m) / 0x10000000000000 = 0 := by omega
    have hfraction : (0 * 0x10000000000000 + m) % 0x10000000000000 = m := by omega
    rw [hfield, hfraction]
    rfl
  · rcases hm.lt_or_eq with hm | rfl
    · have hfield : (k * 0x10000000000000 + m) / 0x10000000000000 = k + 1 := by omega
      have hfraction : 0x10000000000000 + (k * 0x10000000000000 + m) % 0x10000000000000 = m := by
        omega
      rw [hfield, hfraction, if_neg (Nat.succ_ne_zero k), if_neg (Nat.succ_ne_zero k)]
      congr 2
      push_cast
      ring
    · have hfield : (k * 0x10000000000000 + 2 ^ 53) / 0x10000000000000 = k + 2 := by omega
      have hfraction : (k * 0x10000000000000 + 2 ^ 53) % 0x10000000000000 = 0 := by omega
      have hexponent : ((k + 2 : ℕ) : ℤ) - 1075 = (k - 1074 : ℤ) + 1 := by
        push_cast
        ring
      rw [hfield, hfraction, if_neg (Nat.succ_ne_zero _), if_neg (Nat.succ_ne_zero _), hexponent,
        zpow_add_one₀ two_ne_zero]
      norm_num
      ring

/-- Rounding to a whole number moves by a half at most. -/
theorem divideToEven_near (n : ℕ) {d : ℕ} (hd : 0 < d) :
    |(divideToEven n d : ℚ) - n / d| ≤ 1 / 2 := by
  have hd' : (0 : ℚ) < d := by exact_mod_cast hd
  have hquotient : (n : ℚ) / d = (n / d : ℕ) + (n % d : ℕ) / d := by
    rw [eq_comm, ← sub_eq_zero]
    field_simp
    have hdiv : (d : ℚ) * (n / d : ℕ) + (n % d : ℕ) = n := by exact_mod_cast Nat.div_add_mod n d
    linarith
  have hlt : ((n % d : ℕ) : ℚ) / d < 1 := by
    rw [div_lt_one hd']
    exact_mod_cast Nat.mod_lt n hd
  have hpos : (0 : ℚ) ≤ ((n % d : ℕ) : ℚ) / d := by positivity
  rw [divideToEven, hquotient]
  split
  · next hup =>
      have hhalf : (1 : ℚ) / 2 ≤ ((n % d : ℕ) : ℚ) / d := by
        rw [div_le_div_iff₀ two_pos hd']
        have hle : d ≤ 2 * (n % d) := by omega
        have hle' : (d : ℚ) ≤ 2 * (n % d : ℕ) := by exact_mod_cast hle
        linarith
      push_cast
      rw [abs_le]
      constructor <;> linarith
  · next hdown =>
      have hhalf : ((n % d : ℕ) : ℚ) / d ≤ 1 / 2 := by
        rw [div_le_div_iff₀ hd' two_pos]
        have hle : 2 * (n % d) ≤ d := by omega
        have hle' : (2 : ℚ) * (n % d : ℕ) ≤ d := by exact_mod_cast hle
        linarith
      rw [abs_le]
      constructor <;> linarith

/-- A fraction below a bound is not rounded above it. -/
theorem divideToEven_le {n d bound : ℕ} (hd : 0 < d) (h : n < bound * d) :
    divideToEven n d ≤ bound := by
  have hquotient := (Nat.div_lt_iff_lt_mul hd).mpr h
  rw [divideToEven]
  split
  · omega
  · omega

/-- A fraction from a bound on is not rounded below it. -/
theorem le_divideToEven {n d bound : ℕ} (hd : 0 < d) (h : bound * d ≤ n) :
    bound ≤ divideToEven n d := by
  have hquotient := (Nat.le_div_iff_mul_le hd).mpr h
  rw [divideToEven]
  split
  · omega
  · omega

/-- Scaling multiplies a fraction by a power of two. -/
theorem scaleBinary_ratio (num den : ℕ) (power : ℤ) :
    ((scaleBinary num den power).1 : ℚ) / (scaleBinary num den power).2 =
      num / den * 2 ^ power := by
  rw [scaleBinary]
  split
  · next hpower =>
      have hcast : (2 : ℚ) ^ power = 2 ^ power.toNat := by
        rw [← zpow_natCast, Int.toNat_of_nonneg hpower]
      rw [hcast]
      push_cast
      ring
  · next hpower =>
      have hcast : (2 : ℚ) ^ power = (2 ^ (-power).toNat)⁻¹ := by
        rw [← zpow_natCast, Int.toNat_of_nonneg (by omega), zpow_neg, inv_inv]
      rw [hcast]
      push_cast
      ring

/-- Scaling keeps the denominator above zero. -/
theorem scaleBinary_pos (num : ℕ) {den : ℕ} (hden : 0 < den) (power : ℤ) :
    0 < (scaleBinary num den power).2 := by
  rw [scaleBinary]
  split
  · exact hden
  · exact Nat.mul_pos hden (Nat.two_pow_pos _)

/-- The lengths of two numbers decide their ratio up to a factor of two to
either side. -/
theorem ratio_bounds {num den : ℕ} (hnum : 0 < num) (hden : 0 < den) :
    (2 : ℚ) ^ ((num.log2 : ℤ) - den.log2 - 1) ≤ num / den ∧
      (num / den : ℚ) < 2 ^ ((num.log2 : ℤ) - den.log2 + 1) := by
  have hden' : (0 : ℚ) < den := by exact_mod_cast hden
  have hnumLow : (2 : ℚ) ^ (num.log2 : ℤ) ≤ num := by
    rw [zpow_natCast]
    exact_mod_cast Nat.log2_self_le hnum.ne'
  have hnumHigh : (num : ℚ) < 2 ^ ((num.log2 : ℤ) + 1) := by
    rw [← Nat.cast_add_one, zpow_natCast]
    exact_mod_cast Nat.lt_log2_self
  have hdenLow : (2 : ℚ) ^ (den.log2 : ℤ) ≤ den := by
    rw [zpow_natCast]
    exact_mod_cast Nat.log2_self_le hden.ne'
  have hdenHigh : (den : ℚ) < 2 ^ ((den.log2 : ℤ) + 1) := by
    rw [← Nat.cast_add_one, zpow_natCast]
    exact_mod_cast Nat.lt_log2_self
  constructor
  · rw [le_div_iff₀ hden']
    calc (2 : ℚ) ^ ((num.log2 : ℤ) - den.log2 - 1) * den
        ≤ 2 ^ ((num.log2 : ℤ) - den.log2 - 1) * 2 ^ ((den.log2 : ℤ) + 1) := by gcongr
      _ = 2 ^ (num.log2 : ℤ) := by
        rw [← zpow_add₀ two_ne_zero]
        congr 1
        ring
      _ ≤ num := hnumLow
  · rw [div_lt_iff₀ hden']
    calc (num : ℚ) < 2 ^ ((num.log2 : ℤ) + 1) := hnumHigh
      _ = 2 ^ ((num.log2 : ℤ) - den.log2 + 1) * 2 ^ (den.log2 : ℤ) := by
        rw [← zpow_add₀ two_ne_zero]
        congr 1
        ring
      _ ≤ 2 ^ ((num.log2 : ℤ) - den.log2 + 1) * den := by gcongr

/-- Whether a fraction, in units of a bit, has room in so many bits from there
on. -/
theorem scaleBinary_lt_iff (num : ℕ) {den : ℕ} (hden : 0 < den) (bit : ℤ) (digits : ℕ) :
    (scaleBinary num den (-bit)).1 < 2 ^ digits * (scaleBinary num den (-bit)).2 ↔
      (num / den : ℚ) < 2 ^ (bit + digits) := by
  have hpos : (0 : ℚ) < (scaleBinary num den (-bit)).2 := by
    exact_mod_cast scaleBinary_pos num hden (-bit)
  have hratio := scaleBinary_ratio num den (-bit)
  have hscale : (2 : ℚ) ^ (-bit) * 2 ^ (bit + digits) = 2 ^ digits := by
    rw [← zpow_add₀ two_ne_zero, ← zpow_natCast]
    congr 1
    ring
  have hpower : (0 : ℚ) < 2 ^ (-bit) := by positivity
  rw [← Nat.cast_lt (α := ℚ)]
  push_cast
  rw [← div_lt_iff₀ hpos, hratio, ← hscale, mul_comm, mul_lt_mul_iff_right₀ hpower]

/-- **The last bit of a fraction that is written with so many bits.**  Unless it
is the lowest one there is, the fraction really has that many bits. -/
theorem lastBitExponent_bounds (digits : ℕ) (lowest : ℤ) {num den : ℕ} (hnum : 0 < num)
    (hden : 0 < den) :
    lowest ≤ lastBitExponent digits lowest num den ∧
      (num / den : ℚ) < 2 ^ (lastBitExponent digits lowest num den + digits) ∧
      (lastBitExponent digits lowest num den = lowest ∨
        (2 : ℚ) ^ (lastBitExponent digits lowest num den + digits - 1) ≤ num / den) := by
  obtain ⟨hlow, hhigh⟩ := ratio_bounds hnum hden
  set guess : ℤ := (num.log2 : ℤ) - den.log2 - digits with hguess
  have hfits := scaleBinary_lt_iff num hden guess digits
  have hexact : ∃ e, lastBitExponent digits lowest num den = max lowest e ∧
      (num / den : ℚ) < 2 ^ (e + digits) ∧ (2 : ℚ) ^ (e + digits - 1) ≤ num / den := by
    refine ⟨_, rfl, ?_⟩
    dsimp only
    rw [← hguess]
    split
    · next h =>
        refine ⟨hfits.mp h, ?_⟩
        rwa [hguess, sub_add_cancel]
    · next h =>
        have hge : (2 : ℚ) ^ (guess + digits) ≤ num / den := not_lt.mp (mt hfits.mpr h)
        constructor
        · rwa [hguess, show (num.log2 : ℤ) - den.log2 - digits + 1 + digits =
            (num.log2 : ℤ) - den.log2 + 1 by ring]
        · rwa [show guess + 1 + digits - 1 = guess + digits by ring]
  obtain ⟨e, he, hbelow, habove⟩ := hexact
  rw [he]
  rcases le_total e lowest with hle | hle
  · rw [max_eq_left hle]
    refine ⟨le_rfl, hbelow.trans_le ?_, .inl rfl⟩
    exact zpow_le_zpow_right₀ one_le_two (by omega)
  · rw [max_eq_right hle]
    exact ⟨hle, hbelow, .inr habove⟩

/-- A fraction is rounded to a mantissa and an exponent, which are then made a
word. -/
structure Rounds (q : ℚ) (e : ℤ) (m : ℕ) : Prop where
  lowest : -1074 ≤ e
  mantissa_le : m ≤ 2 ^ 53
  /-- The mantissa has its leading bit. -/
  leading : e = -1074 ∨ 2 ^ 52 ≤ m
  near : |m * 2 ^ e - q| ≤ 2 ^ e / 2
  unit_le : e = -1074 ∨ 2 ^ 52 * 2 ^ e ≤ q

namespace Rounds

variable {q : ℚ} {e : ℤ} {m : ℕ}

/-- A small fraction has a small last bit. -/
theorem exponent_le (h : Rounds q e m) {k : ℤ} (hk : -1074 ≤ k) (hq : q < 2 ^ (k + 53)) :
    e ≤ k := by
  rcases h.unit_le with rfl | hunit
  · exact hk
  · by_contra hlarge
    have hpower : (2 : ℚ) ^ (k + 1) ≤ 2 ^ e := zpow_le_zpow_right₀ one_le_two (by omega)
    have hbound : (2 : ℚ) ^ (k + 53) ≤ q := by
      calc (2 : ℚ) ^ (k + 53) = 2 ^ 52 * 2 ^ (k + 1) := by
            rw [← zpow_natCast, ← zpow_add₀ two_ne_zero]
            congr 1
            push_cast
            ring
        _ ≤ 2 ^ 52 * 2 ^ e := mul_le_mul_of_nonneg_left hpower (by positivity)
        _ ≤ q := hunit
    exact absurd hq (not_lt.mpr hbound)

/-- A whole number is rounded to itself, if its last bit stands for a
fraction. -/
theorem mantissa_of_whole {k p : ℕ} (h : Rounds k (-p) m) : m = k * 2 ^ p := by
  have hunit : (0 : ℚ) < 2 ^ p := by positivity
  have hnear := h.near
  rw [zpow_neg, zpow_natCast, ← div_eq_mul_inv] at hnear
  have hscaled : |(m : ℚ) - k * 2 ^ p| ≤ 1 / 2 := by
    have hfactor : (m : ℚ) - k * 2 ^ p = (m / 2 ^ p - k) * 2 ^ p := by
      field_simp
    rw [hfactor, abs_mul, abs_of_pos hunit]
    calc _ ≤ (2 ^ p)⁻¹ / 2 * (2 : ℚ) ^ p := by gcongr
      _ = 1 / 2 := by field_simp
  have hint : |(m : ℤ) - (k * 2 ^ p : ℕ)| < 1 := by
    have hlt : |(m : ℚ) - k * 2 ^ p| < 1 := hscaled.trans_lt (by norm_num)
    exact_mod_cast hlt
  have hzero := Int.abs_lt_one_iff.mp hint
  omega

end Rounds

/-- **What rounding a fraction gives.** -/
theorem exists_rounds (negative : Bool) {num den : ℕ} (hnum : 0 < num) (hden : 0 < den) :
    ∃ e m, Rounds (num / den) e m ∧
      ofRatio negative num den =
        ofMagnitude negative (min infiniteMagnitude ((e + 1074).toNat * exponentWeight + m)) := by
  obtain ⟨hlowest, hbelow, habove⟩ := lastBitExponent_bounds 53 (-1074) hnum hden
  set e := lastBitExponent 53 (-1074) num den with he
  obtain ⟨n, d, hscaled⟩ : ∃ n d, scaleBinary num den (-e) = (n, d) := ⟨_, _, rfl⟩
  have hratio := scaleBinary_ratio num den (-e)
  have hpos := scaleBinary_pos num hden (-e)
  rw [hscaled] at hratio hpos
  dsimp only at hratio hpos
  have hpos' : (0 : ℚ) < d := by exact_mod_cast hpos
  have hunit : (0 : ℚ) < 2 ^ e := by positivity
  have hcancel : (num / den : ℚ) = n / d * 2 ^ e := by
    rw [hratio, zpow_neg, mul_assoc, inv_mul_cancel₀ hunit.ne', mul_one]
  -- In units of the last bit the fraction lies between the bounds of a mantissa.
  have hupper : n < 2 ^ 53 * d := by
    rw [hcancel, zpow_add₀ two_ne_zero, mul_comm ((2 : ℚ) ^ e), mul_lt_mul_iff_left₀ hunit,
      div_lt_iff₀ hpos'] at hbelow
    exact_mod_cast hbelow
  have hunitle : e = -1074 ∨ (2 : ℚ) ^ 52 * 2 ^ e ≤ num / den := by
    refine habove.imp_right fun h => le_trans (le_of_eq ?_) h
    rw [show e + ((53 : ℕ) : ℤ) - 1 = ((52 : ℕ) : ℤ) + e by push_cast; ring,
      zpow_add₀ two_ne_zero, zpow_natCast]
  refine ⟨e, divideToEven n d, ⟨hlowest, divideToEven_le hpos hupper, ?_, ?_, hunitle⟩, ?_⟩
  · refine hunitle.imp_right fun h => le_divideToEven hpos ?_
    rw [hcancel, mul_le_mul_iff_left₀ hunit, le_div_iff₀ hpos'] at h
    exact_mod_cast h
  · rw [hcancel, ← sub_mul, abs_mul, abs_of_pos hunit]
    calc _ ≤ 1 / 2 * (2 : ℚ) ^ e := by
          gcongr
          exact divideToEven_near n hpos
      _ = 2 ^ e / 2 := by ring
  · rw [ofRatio, if_neg hnum.ne', ← he]
    dsimp only
    rw [hscaled]

section OfRatio

variable (negative : Bool) {num den : ℕ}

theorem ofRatio_zero (den : ℕ) : ofRatio negative 0 den = ofMagnitude negative 0 := rfl

/-- The magnitude zero is at no distance from zero. -/
theorem distance_zero : (ofMagnitude negative 0).distance = 0 := by
  have h := distance_ofMagnitude negative (k := 0) (m := 0) (by omega) (.inl rfl) (by decide)
  simpa using h

/-- The word of a rounded fraction, if it is finite. -/
theorem Rounds.word {q : ℚ} {e : ℤ} {m : ℕ} (h : Rounds q e m)
    (hfinite : (e + 1074).toNat * exponentWeight + m < infiniteMagnitude) :
    (ofMagnitude negative ((e + 1074).toNat * exponentWeight + m)).distance = m * 2 ^ e := by
  have hlowest := h.lowest
  have hleading : (e + 1074).toNat = 0 ∨ 2 ^ 52 ≤ m := by
    refine h.leading.imp_left fun he => ?_
    omega
  rw [distance_ofMagnitude negative h.mantissa_le hleading (hfinite.trans (by decide)),
    Int.toNat_of_nonneg (by omega), add_sub_cancel_right]

/-- A magnitude is finite exactly if it is below the infinite one. -/
theorem isFinite_ofMagnitude {magnitude : ℕ} (h : magnitude ≤ infiniteMagnitude) :
    (ofMagnitude negative magnitude).isFinite = decide (magnitude < infiniteMagnitude) := by
  have hword : magnitude < signWeight := h.trans_lt (by decide)
  rw [isFinite, magnitude_ofMagnitude hword]

/-- **The nearest number is near.** -/
theorem ofRatio_near (hden : 0 < den) (hfinite : (ofRatio negative num den).isFinite = true) :
    (ofRatio negative num den).isNegative = negative ∧
      |(ofRatio negative num den).distance - num / den| ≤ num / den / 2 ^ 53 + 1 / 10 ^ 60 := by
  rcases num.eq_zero_or_pos with rfl | hnum
  · rw [ofRatio_zero, distance_zero, isNegative_ofMagnitude (by decide)]
    norm_num
  · obtain ⟨e, m, hrounds, hword⟩ := exists_rounds negative hnum hden
    rw [hword, isFinite_ofMagnitude _ (min_le_left _ _), decide_eq_true_eq] at hfinite
    have hlt : (e + 1074).toNat * exponentWeight + m < infiniteMagnitude := by
      rcases min_lt_iff.mp hfinite with h | h
      · exact absurd h (lt_irrefl _)
      · exact h
    rw [hword, min_eq_right hlt.le, hrounds.word negative hlt,
      isNegative_ofMagnitude (hlt.trans (by decide))]
    refine ⟨rfl, hrounds.near.trans ?_⟩
    have hratio : (0 : ℚ) ≤ num / den := by positivity
    rcases hrounds.unit_le with rfl | hunit
    · have hleast : (2 : ℚ) ^ (-1074 : ℤ) ≤ 2 ^ (-200 : ℤ) :=
        zpow_le_zpow_right₀ one_le_two (by decide)
      have hsmall : (2 : ℚ) ^ (-200 : ℤ) / 2 ≤ 1 / 10 ^ 60 := by norm_num
      calc (2 : ℚ) ^ (-1074 : ℤ) / 2 ≤ 2 ^ (-200 : ℤ) / 2 := by gcongr
        _ ≤ 1 / 10 ^ 60 := hsmall
        _ ≤ num / den / 2 ^ 53 + 1 / 10 ^ 60 := le_add_of_nonneg_left (by positivity)
    · have hhalf : (2 : ℚ) ^ e / 2 ≤ num / den / 2 ^ 53 := by
        rw [le_div_iff₀ (by positivity)]
        linarith
      linarith [show (0 : ℚ) ≤ 1 / 10 ^ 60 by positivity]

/-- **Whole numbers below `2 ^ 53` are kept as they are.** -/
theorem ofRatio_whole (hden : 0 < den) {k : ℕ} (hk : num = k * den) (hsmall : k < 2 ^ 53) :
    (ofRatio negative num den).isFinite = true ∧ (ofRatio negative num den).distance = k := by
  rcases num.eq_zero_or_pos with rfl | hnum
  · obtain rfl : k = 0 := by
      rcases Nat.mul_eq_zero.mp hk.symm with h | h
      · exact h
      · omega
    rw [ofRatio_zero, distance_zero, isFinite_ofMagnitude _ (by decide)]
    exact ⟨by decide, rfl⟩
  · obtain ⟨e, m, hrounds, hword⟩ := exists_rounds negative hnum hden
    have hratio : (num / den : ℚ) = k := by
      rw [hk, Nat.cast_mul, mul_div_cancel_right₀ _ (by exact_mod_cast hden.ne')]
    rw [hratio] at hrounds
    -- The last bit stands for a fraction, so that the whole number is on its grid.
    have he : e ≤ 0 := hrounds.exponent_le (by decide) (by norm_num; exact_mod_cast hsmall)
    obtain ⟨p, rfl⟩ : ∃ p : ℕ, e = -p := ⟨(-e).toNat, by omega⟩
    have hm := hrounds.mantissa_of_whole
    have hfinite : (-(p : ℤ) + 1074).toNat * exponentWeight + m < infiniteMagnitude := by
      have hmantissa := hrounds.mantissa_le
      have hsteps : (-(p : ℤ) + 1074).toNat ≤ 1074 := by omega
      rw [infiniteMagnitude, exponentWeight]
      omega
    rw [hword, min_eq_right hfinite.le, hrounds.word negative hfinite,
      isFinite_ofMagnitude _ hfinite.le, decide_eq_true_eq]
    refine ⟨hfinite, ?_⟩
    rw [hm, zpow_neg, zpow_natCast]
    push_cast
    rw [mul_assoc, mul_inv_cancel₀ (by positivity), mul_one]

/-- Only what lies beyond all finite numbers becomes infinite. -/
theorem ofRatio_infinite (hden : 0 < den) (h : (ofRatio negative num den).isFinite = false) :
    (2 : ℚ) ^ 1023 ≤ num / den := by
  rcases num.eq_zero_or_pos with rfl | hnum
  · rw [ofRatio_zero, isFinite_ofMagnitude _ (by decide)] at h
    cases h
  · obtain ⟨e, m, hrounds, hword⟩ := exists_rounds negative hnum hden
    rw [hword, isFinite_ofMagnitude _ (min_le_left _ _), decide_eq_false_iff_not, not_lt,
      le_min_iff] at h
    have hmantissa := hrounds.mantissa_le
    have hlarge := h.2
    rw [infiniteMagnitude, exponentWeight] at hlarge
    by_contra hsmall
    have hbelow : (num / den : ℚ) < 2 ^ ((970 : ℤ) + 53) := by
      rw [show (970 : ℤ) + 53 = ((1023 : ℕ) : ℤ) from rfl, zpow_natCast]
      exact not_le.mp hsmall
    have he : e ≤ 970 := hrounds.exponent_le (by decide) hbelow
    omega

end OfRatio

end Binary64

end FilterQuery
