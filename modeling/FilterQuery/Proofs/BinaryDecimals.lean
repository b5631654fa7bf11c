import FilterQuery.Number.Decimal
import FilterQuery.Proofs.NearestBinary

/-!
# Decimals of binary numbers

A binary number is turned into a decimal in steps that trade factors of two,
five and ten against one another and give up digits where there is no room.
Each step keeps the number or moves it by less than a known part of it, so that
the decimal is close to the binary number; whole numbers are kept as they are,
and a number without a decimal lies beyond all decimals.
-/

namespace FilterQuery.Decimal

/-- The distance of a decimal from zero. -/
def distance (d : Decimal) : ℚ := d.coefficient / 10 ^ d.scale

/-- The rational number that a decimal stands for. -/
def number (d : Decimal) : ℚ := Number.signed d.negative d.distance

/-- The number of a decimal is its signed coefficient at its scale. -/
theorem number_eq (d : Decimal) : d.number = d.signed / 10 ^ d.scale := by
  rw [number, distance, Number.signed, signed]
  split
  · push_cast
    ring
  · push_cast
    rfl

/-- The decimal of an integer stands for it. -/
theorem number_ofInt (n : ℤ) : (ofInt n).number = n := by
  have hsigned : (ofInt n).signed = n := by
    rw [signed, ofInt]
    split
    · next hneg =>
        have hlt : n < 0 := of_decide_eq_true hneg
        dsimp only
        omega
    · next hnonneg =>
        have hge : ¬ n < 0 := fun h => hnonneg (decide_eq_true h)
        dsimp only
        omega
  rw [number_eq, hsigned]
  simp [ofInt]

/-- Decimals are ordered as the numbers they stand for. -/
theorem compare_eq (a b : Decimal) : a.compare b = compare a.number b.number := by
  -- Over a common denominator the numerators are in the order of the fractions.
  have hmono : StrictMono fun z : ℤ => (z : ℚ) / (10 ^ a.scale * 10 ^ b.scale) := by
    intro z w hzw
    have hcast : (z : ℚ) < w := by exact_mod_cast hzw
    dsimp only
    gcongr
  have ha : ((a.signed * 10 ^ b.scale : ℤ) : ℚ) / (10 ^ a.scale * 10 ^ b.scale) = a.number := by
    rw [number_eq]
    push_cast
    field_simp
  have hb : ((b.signed * 10 ^ a.scale : ℤ) : ℚ) / (10 ^ a.scale * 10 ^ b.scale) = b.number := by
    rw [number_eq]
    push_cast
    field_simp
  have hcompare := hmono.cmp_map_eq (a.signed * 10 ^ b.scale) (b.signed * 10 ^ a.scale)
  rw [cmp_eq_compare, cmp_eq_compare, ha, hb] at hcompare
  exact hcompare.symm

namespace Scaled

/-- The number under conversion. -/
def number (s : Scaled) : ℚ := s.value * 10 ^ s.tens * 5 ^ s.fives

/-- No number under conversion is negative. -/
theorem number_nonneg (s : Scaled) : 0 ≤ s.number := by
  rw [number]
  positivity

/-- A two in place of a ten and a five. -/
theorem number_of_half {s : Scaled} {v : ℕ} (hv : s.value = 2 * v) :
    number ⟨v, s.tens + 1, s.fives - 1⟩ = s.number := by
  rw [number, number, hv, zpow_add_one₀ (by norm_num), zpow_sub_one₀ (by norm_num)]
  push_cast
  ring

/-- A five more in the value is one less beside it. -/
theorem number_of_five (s : Scaled) : number ⟨s.value * 5, s.tens, s.fives - 1⟩ = s.number := by
  rw [number, number, zpow_sub_one₀ (by norm_num)]
  push_cast
  ring

/-- The half of an odd value is rounded, which takes one of so many parts
away. -/
theorem number_of_rounded_half {s : Scaled} {v : ℕ} (hv : s.value = 2 * v + 1) :
    number ⟨v, s.tens + 1, s.fives - 1⟩ = s.number - s.number / s.value := by
  rw [number, number, hv, zpow_add_one₀ (by norm_num), zpow_sub_one₀ (by norm_num)]
  have hpos : (2 * (v : ℚ) + 1) ≠ 0 := by positivity
  push_cast
  field_simp
  ring

/-- What taking one five in may do: it loses at most one part of `2 ^ 93`. -/
structure TakesFive (s next : Scaled) : Prop where
  fives : next.fives = s.fives - 1
  tens_ge : s.tens ≤ next.tens
  tens_le : next.tens ≤ s.tens + 1
  fits : next.value < bound
  le : next.number ≤ s.number
  near : s.number - next.number ≤ s.number / 2 ^ 93

/-- Taking in a five without a change of the number loses nothing. -/
theorem TakesFive.of_number_eq {s next : Scaled} (hfives : next.fives = s.fives - 1)
    (hge : s.tens ≤ next.tens) (hle : next.tens ≤ s.tens + 1) (hfits : next.value < bound)
    (hnumber : next.number = s.number) : TakesFive s next where
  fives := hfives
  tens_ge := hge
  tens_le := hle
  fits := hfits
  le := hnumber.le
  near := by
    rw [hnumber, sub_self]
    exact div_nonneg s.number_nonneg (by positivity)

/-- One step with a five left: a two is taken if there is one, else a five if it
fits, else half of the value, rounded. -/
theorem multiplyFives_step (fuel : ℕ) {s : Scaled} (hpos : 0 < s.fives) (hfits : s.value < bound) :
    ∃ next, TakesFive s next ∧ s.multiplyFives (fuel + 1) = next.multiplyFives fuel := by
  rw [multiplyFives, if_pos hpos]
  have hhalf : s.value / 2 < bound := lt_of_le_of_lt (Nat.div_le_self _ _) hfits
  split
  · next heven =>
      have htwo : s.value = 2 * (s.value / 2) := by omega
      exact ⟨_, .of_number_eq rfl (by simp) (by simp) hhalf (number_of_half htwo), rfl⟩
  · next hodd =>
      split
      · next hroom =>
          exact ⟨_, .of_number_eq rfl (by simp) (by simp) hroom (number_of_five s), rfl⟩
      · next hfull =>
          have htwo : s.value = 2 * (s.value / 2) + 1 := by omega
          have hnumber := number_of_rounded_half htwo
          have hnonneg := s.number_nonneg
          have hlarge : (2 : ℚ) ^ 93 ≤ s.value := by
            rw [bound] at hfull
            have hle : 2 ^ 93 ≤ s.value := by omega
            exact_mod_cast hle
          refine ⟨_, ⟨rfl, by simp, by simp, hhalf, ?_, ?_⟩, rfl⟩
          · have hpart : 0 ≤ s.number / s.value := div_nonneg hnonneg (by positivity)
            rw [hnumber]
            linarith
          · rw [hnumber, sub_sub_cancel]
            gcongr

/-- **Multiplying the fives in** loses less than one part of `2 ^ 93` with each
of them. -/
theorem multiplyFives_near (fuel : ℕ) : ∀ s : Scaled, 0 ≤ s.fives → s.fives ≤ fuel →
    s.value < bound →
    (s.multiplyFives fuel).fives = 0 ∧ s.tens ≤ (s.multiplyFives fuel).tens ∧
      (s.multiplyFives fuel).tens ≤ s.tens + s.fives ∧
      (s.multiplyFives fuel).number ≤ s.number ∧
      s.number - (s.multiplyFives fuel).number ≤ s.number * (s.fives / 2 ^ 93) := by
  induction fuel with
  | zero =>
      intro s hfives hfuel _
      have hzero : s.fives = 0 := le_antisymm hfuel hfives
      rw [multiplyFives, hzero]
      simp
  | succ fuel ih =>
      intro s hfives hfuel hvalue
      rcases hfives.eq_or_lt with hzero | hpos
      · rw [multiplyFives, if_neg (by omega), ← hzero]
        simp
      · obtain ⟨next, hstep, hrun⟩ := multiplyFives_step fuel hpos hvalue
        have hleft := hstep.fives
        have htens := hstep.tens_ge
        have htens' := hstep.tens_le
        push_cast at hfuel
        obtain ⟨hnone, hge, hle, hnumber, hlost⟩ := ih next (by omega) (by omega) hstep.fits
        rw [hrun]
        refine ⟨hnone, by omega, by omega, hnumber.trans hstep.le, ?_⟩
        have hfewer : (next.fives : ℚ) = s.fives - 1 := by exact_mod_cast hleft
        have hcount : (0 : ℚ) ≤ next.fives := by exact_mod_cast (by omega : 0 ≤ next.fives)
        have hpart : next.number * (next.fives / 2 ^ 93) ≤ s.number * (next.fives / 2 ^ 93) := by
          have hless := hstep.le
          gcongr
        have hsplit : s.number * (s.fives / 2 ^ 93) =
            s.number * (next.fives / 2 ^ 93) + s.number / 2 ^ 93 := by
          rw [hfewer]
          ring
        have hfirst := hstep.near
        rw [hsplit]
        linarith

/-- A value with twos enough gives up nothing else. -/
theorem multiplyFives_whole (fuel : ℕ) : ∀ (n : ℕ) (tens : ℤ) (f : ℕ), f ≤ fuel →
    multiplyFives fuel ⟨n * 2 ^ f, tens, f⟩ = ⟨n, tens + f, 0⟩ := by
  induction fuel with
  | zero =>
      intro n tens f hf
      obtain rfl : f = 0 := by omega
      simp [multiplyFives]
  | succ fuel ih =>
      intro n tens f hf
      cases f with
      | zero => simp [multiplyFives]
      | succ f =>
          have heven : n * 2 ^ (f + 1) = 2 * (n * 2 ^ f) := by ring
          have hpos : (0 : ℤ) < ((f + 1 : ℕ) : ℤ) := by omega
          have hfives : ((f + 1 : ℕ) : ℤ) - 1 = f := by omega
          rw [multiplyFives, if_pos hpos]
          dsimp only
          rw [heven, if_pos (Nat.mul_mod_right 2 _), Nat.mul_div_cancel_left _ two_pos, hfives,
            ih n (tens + 1) f (by omega)]
          congr 1
          push_cast
          ring

/-- Without fives below the line there is nothing to divide. -/
theorem divideFives_of_nonneg (fuel : ℕ) {s : Scaled} (h : 0 ≤ s.fives) :
    s.divideFives fuel = some s := by
  cases fuel with
  | zero => rfl
  | succ fuel => rw [divideFives, if_neg (by omega)]

/-- **Dividing the missing fives out** of a power of two keeps the number, or
fails because the number lies beyond all decimals. -/
theorem divideFives_whole (fuel : ℕ) : ∀ (v k : ℕ), k ≤ fuel → v < bound →
    (∃ n : ℕ, divideFives fuel ⟨v, k, -k⟩ = some ⟨n, 0, 0⟩ ∧ n = v * 2 ^ k ∧ n < bound) ∨
      divideFives fuel ⟨v, k, -k⟩ = none ∧ 2 ^ 96 ≤ v * 2 ^ k := by
  induction fuel with
  | zero =>
      intro v k hk hv
      obtain rfl : k = 0 := by omega
      exact .inl ⟨v, by simp [divideFives], by simp, hv⟩
  | succ fuel ih =>
      intro v k hk hv
      cases k with
      | zero => exact .inl ⟨v, by simp [divideFives], by simp, hv⟩
      | succ k =>
          have hneg : -((k + 1 : ℕ) : ℤ) < 0 := by omega
          rw [divideFives, if_pos hneg]
          dsimp only
          split
          · next hroom =>
              have htens : ((k + 1 : ℕ) : ℤ) - 1 = k := by omega
              have hfives : -((k + 1 : ℕ) : ℤ) + 1 = -k := by omega
              have hpower : v * 2 ^ (k + 1) = v * 2 * 2 ^ k := by ring
              rw [htens, hfives, hpower]
              refine ih (v * 2) k (by omega) ?_
              rw [bound] at hroom ⊢
              omega
          · next hfull =>
              rw [if_pos (by omega)]
              refine .inr ⟨rfl, ?_⟩
              have hpower : v * 2 ^ (k + 1) = v * 2 * 2 ^ k := by ring
              have hlarge : 2 ^ 96 ≤ v * 2 := by
                rw [bound] at hfull
                omega
              rw [hpower]
              exact hlarge.trans (Nat.le_mul_of_pos_right _ (Nat.two_pow_pos k))

/-- Without tens above the line there is nothing to multiply. -/
theorem multiplyTens_of_nonpos (fuel : ℕ) {s : Scaled} (h : s.tens ≤ 0) :
    s.multiplyTens fuel = some s := by
  cases fuel with
  | zero => rfl
  | succ fuel => rw [multiplyTens, if_neg (by omega)]

/-- A digit that is dropped counts at most a five of the next one's units. -/
theorem dropDigit_near (n : ℕ) : |(dropDigit n : ℚ) * 10 - n| ≤ 5 := by
  have hdiv : |(dropDigit n : ℤ) * 10 - n| ≤ 5 := by
    rw [dropDigit, abs_le]
    split
    · omega
    · omega
  exact_mod_cast hdiv

/-- Dropping a digit changes a number by half a unit at most. -/
theorem number_dropDigit_near {s : Scaled} (hfives : s.fives = 0) :
    |number { s with value := dropDigit s.value, tens := s.tens + 1 } - s.number| ≤
      5 * 10 ^ s.tens := by
  have hunit : (0 : ℚ) < 10 ^ s.tens := by positivity
  have hfactor : number { s with value := dropDigit s.value, tens := s.tens + 1 } - s.number =
      ((dropDigit s.value : ℚ) * 10 - s.value) * 10 ^ s.tens := by
    rw [number, number]
    dsimp only
    rw [hfives, zpow_add_one₀ (by norm_num)]
    ring
  rw [hfactor, abs_mul, abs_of_pos hunit]
  exact mul_le_mul_of_nonneg_right (dropDigit_near _) hunit.le

/-- A number of one digit is less than ten of its units. -/
theorem number_zero_near {s : Scaled} (hfives : s.fives = 0) (hsmall : s.value ≤ 9) :
    |number { s with value := 0, tens := 0 } - s.number| ≤ 9 * 10 ^ s.tens := by
  have hvalue : (s.value : ℚ) ≤ 9 := by exact_mod_cast hsmall
  have hnumber : number { s with value := 0, tens := 0 } - s.number = -(s.value * 10 ^ s.tens) := by
    rw [number, number, hfives]
    simp
  rw [hnumber, abs_neg, abs_of_nonneg (by positivity)]
  gcongr

/-- A number of few enough places fits as it is. -/
theorem fitScale_of_ge (fuel : ℕ) {s : Scaled} (h : -28 ≤ s.tens) : s.fitScale fuel = s := by
  cases fuel with
  | zero => rfl
  | succ fuel => rw [fitScale, if_neg (by rw [maxScale]; omega)]

/-- **Dropping the digits that the scale has no room for** moves the number by
less than two units of the last digit that there is room for. -/
theorem fitScale_near (fuel : ℕ) : ∀ s : Scaled, s.fives = 0 → s.tens ≤ -28 →
    -28 - s.tens ≤ fuel →
    (s.fitScale fuel).fives = 0 ∧ -28 ≤ (s.fitScale fuel).tens ∧ (s.fitScale fuel).tens ≤ 0 ∧
      |(s.fitScale fuel).number - s.number| ≤ 2 / 10 ^ 28 - 10 ^ s.tens := by
  have hroom : ∀ s : Scaled, s.tens = -28 → (0 : ℚ) ≤ 2 / 10 ^ 28 - 10 ^ s.tens := by
    intro s h
    rw [h]
    norm_num
  induction fuel with
  | zero =>
      intro s hfives htens hfuel
      have hscale : s.tens = -28 := by omega
      rw [fitScale, sub_self, abs_zero]
      exact ⟨hfives, hscale.ge, by omega, hroom s hscale⟩
  | succ fuel ih =>
      intro s hfives htens hfuel
      rw [fitScale]
      split
      · next hlow =>
          rw [maxScale] at hlow
          have hunit : (10 : ℚ) ^ s.tens ≤ 10 ^ (-29 : ℤ) :=
            zpow_le_zpow_right₀ (by norm_num) (by omega)
          split
          · next hsmall =>
              rw [fitScale_of_ge fuel (by simp)]
              refine ⟨hfives, by simp, by simp, (number_zero_near hfives (by omega)).trans ?_⟩
              norm_num at hunit ⊢
              linarith
          · next hlarge =>
              obtain ⟨hzero, hlowest, hhighest, hnear⟩ :=
                ih { s with value := dropDigit s.value, tens := s.tens + 1 } hfives
                  (by dsimp only; omega) (by dsimp only; push_cast at hfuel; omega)
              refine ⟨hzero, hlowest, hhighest, ?_⟩
              have hstep := number_dropDigit_near hfives
              have hpos : (0 : ℚ) < 10 ^ s.tens := by positivity
              dsimp only at hnear
              rw [zpow_add_one₀ (by norm_num)] at hnear
              refine (abs_sub_le _ _ _).trans ((add_le_add hnear hstep).trans ?_)
              linarith
      · next hfits =>
          rw [maxScale] at hfits
          have hscale : s.tens = -28 := by omega
          rw [sub_self, abs_zero]
          exact ⟨hfives, hscale.ge, by omega, hroom s hscale⟩

/-- **Dropping the digits that a binary number does not vouch for** moves the
number by less than one unit of the last digit that is kept, and of those that
are kept there are at least fifteen. -/
theorem fitPrecision_near (fuel : ℕ) : ∀ s : Scaled, s.fives = 0 → s.tens ≤ 0 → -s.tens ≤ fuel →
    (s.fitPrecision fuel).fives = 0 ∧ (s.fitPrecision fuel).tens ≤ 0 ∧
      (s.fitPrecision fuel = s ∨
        2 ^ 52 ≤ 10 * (s.fitPrecision fuel).value ∧
          |(s.fitPrecision fuel).number - s.number| ≤
            5 / 9 * (10 ^ (s.fitPrecision fuel).tens - 10 ^ s.tens)) := by
  induction fuel with
  | zero => exact fun s hfives htens _ => ⟨hfives, htens, .inl rfl⟩
  | succ fuel ih =>
      intro s hfives htens hfuel
      rw [fitPrecision]
      split
      · next hlong =>
          rw [Binary64.exponentWeight] at hlong
          set next : Scaled := { s with value := dropDigit s.value, tens := s.tens + 1 } with hnext
          obtain ⟨hzero, hnonpos, hmore⟩ := ih next hfives (by rw [hnext]; dsimp only; omega)
            (by rw [hnext]; dsimp only; push_cast at hfuel; omega)
          have hstep : |next.number - s.number| ≤ 5 * 10 ^ s.tens := number_dropDigit_near hfives
          have hunit : (10 : ℚ) ^ next.tens = 10 * 10 ^ s.tens := by
            rw [hnext, zpow_add_one₀ (by norm_num), mul_comm]
          refine ⟨hzero, hnonpos, .inr ?_⟩
          rcases hmore with hdone | ⟨hkept, hnear⟩
          · rw [hdone, hunit]
            constructor
            · rw [hnext]
              dsimp only
              rw [dropDigit]
              split
              · omega
              · omega
            · linarith
          · refine ⟨hkept, (abs_sub_le _ next.number _).trans ?_⟩
            rw [hunit] at hnear
            linarith
      · exact ⟨hfives, htens, .inl rfl⟩

/-- Zeros at the end may be dropped. -/
theorem stripZeros_number (fuel : ℕ) : ∀ s : Scaled, s.tens ≤ 0 →
    (s.stripZeros fuel).number = s.number ∧ (s.stripZeros fuel).fives = s.fives ∧
      (s.stripZeros fuel).tens ≤ 0 := by
  induction fuel with
  | zero => exact fun s h => ⟨rfl, rfl, h⟩
  | succ fuel ih =>
      intro s htens
      rw [stripZeros]
      split
      · next hzero =>
          obtain ⟨hnumber, hfives, hnonpos⟩ :=
            ih { s with value := s.value / 10, tens := s.tens + 1 } (by dsimp only; omega)
          refine ⟨hnumber.trans ?_, hfives, hnonpos⟩
          have hten : s.value = 10 * (s.value / 10) := by omega
          rw [number, number]
          dsimp only
          rw [zpow_add_one₀ (by norm_num)]
          conv_rhs => rw [hten]
          push_cast
          ring
      · exact ⟨rfl, rfl, htens⟩

/-- Without fives above the line there is nothing to multiply in. -/
theorem multiplyFives_of_nonpos (fuel : ℕ) {s : Scaled} (h : s.fives ≤ 0) :
    s.multiplyFives fuel = s := by
  cases fuel with
  | zero => rfl
  | succ fuel => rw [multiplyFives, if_neg (by omega)]

/-- The last steps, in which digits are dropped. -/
def trim (s : Scaled) : Scaled := ((s.fitScale 1200).fitPrecision 100).stripZeros 100

/-- A number is rounded to so large a unit only if it has fifteen digits
above. -/
def KeepsDigits (unit q : ℚ) : Prop :=
  unit = 0 ∨ ∃ k : ℕ, unit = 1 / 10 ^ k ∧ 2 ^ 52 * unit ≤ 10 * q

/-- The last steps change a number by little, and only if it has digits
enough. -/
theorem trim_near {s : Scaled} (hfives : s.fives = 0) (htens : s.tens ≤ 0)
    (hlow : -1074 ≤ s.tens) :
    s.trim.fives = 0 ∧ s.trim.tens ≤ 0 ∧
      ∃ unit, KeepsDigits unit s.trim.number ∧
        |s.trim.number - s.number| ≤ 2 / 10 ^ 28 + 5 / 9 * unit := by
  have hscale : (s.fitScale 1200).fives = 0 ∧ -28 ≤ (s.fitScale 1200).tens ∧
      (s.fitScale 1200).tens ≤ 0 ∧ |(s.fitScale 1200).number - s.number| ≤ 2 / 10 ^ 28 := by
    rcases le_total s.tens (-28) with hle | hge
    · obtain ⟨hzero, hlowest, hnonpos, hnear⟩ := fitScale_near 1200 s hfives hle (by omega)
      have hunit : (0 : ℚ) < 10 ^ s.tens := by positivity
      exact ⟨hzero, hlowest, hnonpos, by linarith⟩
    · rw [fitScale_of_ge _ hge, sub_self, abs_zero]
      exact ⟨hfives, hge, htens, by positivity⟩
  obtain ⟨hzero, hlowest, hnonpos, hnear⟩ := hscale
  obtain ⟨hzero', hnonpos', hmore⟩ := fitPrecision_near 100 _ hzero hnonpos (by omega)
  obtain ⟨hnumber, hfives', htens'⟩ := stripZeros_number 100 _ hnonpos'
  rw [trim, hnumber]
  refine ⟨hfives'.trans hzero', htens', ?_⟩
  rcases hmore with hdone | ⟨hkept, hclose⟩
  · rw [hdone]
    exact ⟨0, .inl rfl, by linarith⟩
  · set t := (s.fitScale 1200).fitPrecision 100 with ht
    have hunit : (10 : ℚ) ^ t.tens = 1 / 10 ^ (-t.tens).toNat := by
      rw [one_div, ← zpow_natCast, Int.toNat_of_nonneg (by omega), zpow_neg, inv_inv]
    refine ⟨10 ^ t.tens, .inr ⟨_, hunit, ?_⟩, ?_⟩
    · have hcast : (2 : ℚ) ^ 52 ≤ 10 * t.value := by exact_mod_cast hkept
      rw [number, hzero', zpow_zero, mul_one, ← mul_assoc]
      gcongr
    · have hpos : (0 : ℚ) < 10 ^ (s.fitScale 1200).tens := by positivity
      refine (abs_sub_le _ (s.fitScale 1200).number _).trans ?_
      linarith

/-- Whole numbers have no digits to drop. -/
theorem trim_of_tens {s : Scaled} (h : s.tens = 0) : s.trim = s := by
  rw [trim, fitScale_of_ge _ (by omega), fitPrecision, if_neg (by omega), stripZeros,
    if_neg (by omega)]

/-- A number without fives as a decimal. -/
def toDecimal (negative : Bool) (s : Scaled) : Decimal := ⟨negative, s.value, (-s.tens).toNat⟩

/-- The decimal of a number without fives is at its distance. -/
theorem distance_toDecimal (negative : Bool) {s : Scaled} (hfives : s.fives = 0)
    (htens : s.tens ≤ 0) : (s.toDecimal negative).distance = s.number := by
  have hunit : (10 : ℚ) ^ s.tens = (10 ^ (-s.tens).toNat)⁻¹ := by
    rw [← zpow_natCast, Int.toNat_of_nonneg (by omega), zpow_neg, inv_inv]
  rw [distance, toDecimal, number, hfives, hunit, zpow_zero, mul_one, div_eq_mul_inv]

end Scaled

open Binary64 Scaled

section OfBinary

variable {x : Binary64}

/-- Zero is the decimal zero. -/
theorem ofBinary?_of_isZero (h : x.isZero = true) (hfinite : x.isFinite = true) :
    ofBinary? x = some ⟨x.isNegative, 0, 0⟩ := by
  simp [ofBinary?, h, hfinite]

/-- The start of the conversion. -/
theorem ofBinary?_eq (hfinite : x.isFinite = true) (hzero : x.isZero = false) :
    ofBinary? x =
      ((((⟨x.mantissa, x.exponent, -x.exponent⟩ : Scaled).multiplyFives 1100).divideFives
        1100).bind (·.multiplyTens 1100)).map fun s => s.trim.toDecimal x.isNegative := by
  simp only [ofBinary?, hfinite, hzero]
  cases ((⟨x.mantissa, x.exponent, -x.exponent⟩ : Scaled).multiplyFives 1100).divideFives 1100 with
  | none => rfl
  | some s =>
      cases hs : s.multiplyTens 1100 with
      | none => simp [hs]
      | some t => simp [hs, trim, toDecimal]

/-- Every mantissa fits into a decimal. -/
theorem mantissa_lt_bound (x : Binary64) : x.mantissa < bound :=
  x.mantissa_lt.trans (by decide)

/-- A number with its fives multiplied in. -/
def expanded (x : Binary64) : Scaled :=
  (⟨x.mantissa, x.exponent, -x.exponent⟩ : Scaled).multiplyFives 1100

/-- **Multiplying the fives in loses next to nothing.** -/
theorem expanded_near (hfinite : x.isFinite = true) (h : x.exponent ≤ 0) :
    (expanded x).fives = 0 ∧ (expanded x).tens ≤ 0 ∧ -1074 ≤ (expanded x).tens ∧
      (expanded x).number ≤ x.distance ∧
      x.distance - (expanded x).number ≤ x.distance / 2 ^ 82 := by
  obtain ⟨hlow, -⟩ := exponent_bounds hfinite
  obtain ⟨hfives, htens, htens', hle, hlost⟩ := multiplyFives_near 1100
    ⟨x.mantissa, x.exponent, -x.exponent⟩ (by dsimp only; omega) (by dsimp only; push_cast; omega)
    (mantissa_lt_bound x)
  dsimp only at htens htens' hlost
  have hstart : Scaled.number ⟨x.mantissa, x.exponent, -x.exponent⟩ = x.distance := by
    rw [Scaled.number, Binary64.distance, zpow_neg, mul_assoc, ← div_eq_mul_inv, ← div_zpow]
    norm_num
  have hpart : x.distance * (((-x.exponent : ℤ) : ℚ) / 2 ^ 93) ≤ x.distance / 2 ^ 82 := by
    have hsteps : ((-x.exponent : ℤ) : ℚ) ≤ 2 ^ 11 := by
      exact_mod_cast (by omega : -x.exponent ≤ 2 ^ 11)
    have hpos := x.distance_nonneg
    calc x.distance * (((-x.exponent : ℤ) : ℚ) / 2 ^ 93)
        ≤ x.distance * (2 ^ 11 / 2 ^ 93) := by gcongr
      _ = x.distance / 2 ^ 82 := by ring
  rw [hstart] at hle hlost
  refine ⟨hfives, ?_, ?_, hle, hlost.trans hpart⟩
  · rw [expanded]
    omega
  · rw [expanded]
    omega

/-- **A number with a fraction, or a small one, has a decimal.** -/
theorem ofBinary?_of_nonpos (hfinite : x.isFinite = true) (hzero : x.isZero = false)
    (h : x.exponent ≤ 0) :
    ofBinary? x = some ((expanded x).trim.toDecimal x.isNegative) := by
  obtain ⟨hfives, htens, -⟩ := expanded_near hfinite h
  rw [expanded] at hfives htens ⊢
  rw [ofBinary?_eq hfinite hzero, divideFives_of_nonneg _ hfives.ge, Option.bind_some,
    multiplyTens_of_nonpos _ htens, Option.map_some]

/-- **A large number is a whole one, and has a decimal unless it lies beyond all
of them.** -/
theorem ofBinary?_of_pos (hfinite : x.isFinite = true) (hzero : x.isZero = false)
    (h : 0 < x.exponent) :
    (∃ n : ℕ, ofBinary? x = some ⟨x.isNegative, n, 0⟩ ∧ (n : ℚ) = x.distance ∧ n < bound) ∨
      ofBinary? x = none ∧ 2 ^ 96 ≤ x.distance := by
  obtain ⟨-, hhigh⟩ := exponent_bounds hfinite
  obtain ⟨k, hk⟩ : ∃ k : ℕ, x.exponent = k := ⟨x.exponent.toNat, by omega⟩
  have hdistance : x.distance = (x.mantissa * 2 ^ k : ℕ) := by
    rw [Binary64.distance, hk, zpow_natCast]
    push_cast
    rfl
  rw [ofBinary?_eq hfinite hzero, multiplyFives_of_nonpos _ (by dsimp only; omega), hk, hdistance]
  rcases divideFives_whole 1100 x.mantissa k (by omega) (mantissa_lt_bound x) with
    ⟨n, hn, rfl, hfits⟩ | ⟨hnone, hlarge⟩
  · left
    refine ⟨_, ?_, rfl, hfits⟩
    rw [hn, Option.bind_some, multiplyTens_of_nonpos _ le_rfl, Option.map_some,
      trim_of_tens rfl]
    rfl
  · right
    rw [hnone]
    exact ⟨rfl, by exact_mod_cast hlarge⟩

/-- **The decimal of a binary number is near**: all but its last steps lose next
to nothing, and the digits that those drop lie behind the fifteenth. -/
theorem ofBinary?_near {d : Decimal} (hfinite : x.isFinite = true) (h : ofBinary? x = some d) :
    d.negative = x.isNegative ∧
      ∃ unit, KeepsDigits unit d.distance ∧
        |d.distance - x.distance| ≤ x.distance / 2 ^ 82 + 2 / 10 ^ 28 + 5 / 9 * unit := by
  have hexact : d.distance = x.distance → ∃ unit, KeepsDigits unit d.distance ∧
      |d.distance - x.distance| ≤ x.distance / 2 ^ 82 + 2 / 10 ^ 28 + 5 / 9 * unit := by
    intro heq
    have hpos := x.distance_nonneg
    refine ⟨0, .inl rfl, ?_⟩
    rw [heq, sub_self, abs_zero]
    positivity
  cases hzero : x.isZero with
  | true =>
      rw [ofBinary?_of_isZero hzero hfinite, Option.some_inj] at h
      subst h
      exact ⟨rfl, hexact (by simp [distance, distance_of_isZero hzero])⟩
  | false =>
      rcases le_or_gt x.exponent 0 with hexponent | hexponent
      · rw [ofBinary?_of_nonpos hfinite hzero hexponent, Option.some_inj] at h
        subst h
        obtain ⟨hfives, htens, hlow, hle, hlost⟩ := expanded_near hfinite hexponent
        obtain ⟨hfives', htens', unit, hkeeps, hnear⟩ := trim_near hfives htens hlow
        rw [distance_toDecimal _ hfives' htens']
        refine ⟨rfl, unit, hkeeps, (abs_sub_le _ _ _).trans ((add_le_add_left hnear _).trans ?_)⟩
        rw [abs_sub_comm, abs_of_nonneg (sub_nonneg.mpr hle)]
        linarith
      · rcases ofBinary?_of_pos hfinite hzero hexponent with ⟨n, hn, hdistance, -⟩ | ⟨hnone, -⟩
        · obtain rfl := Option.some.inj (hn.symm.trans h)
          exact ⟨rfl, hexact (by rw [← hdistance, distance]; simp)⟩
        · cases hnone.symm.trans h

/-- **Whole numbers are kept as they are.** -/
theorem ofBinary?_whole {d : Decimal} (hfinite : x.isFinite = true) (h : ofBinary? x = some d)
    {k : ℕ} (hk : x.distance = k) : d.distance = k := by
  cases hzero : x.isZero with
  | true =>
      rw [ofBinary?_of_isZero hzero hfinite, Option.some_inj] at h
      subst h
      rw [← hk, distance_of_isZero hzero, distance]
      simp
  | false =>
      rcases le_or_gt x.exponent 0 with hexponent | hexponent
      · rw [ofBinary?_of_nonpos hfinite hzero hexponent, Option.some_inj] at h
        subst h
        obtain ⟨hlow, -⟩ := exponent_bounds hfinite
        obtain ⟨p, hp⟩ : ∃ p : ℕ, x.exponent = -p := ⟨(-x.exponent).toNat, by omega⟩
        have hmantissa : x.mantissa = k * 2 ^ p := by
          rw [Binary64.distance, hp, zpow_neg, zpow_natCast, ← div_eq_mul_inv,
            div_eq_iff (by positivity)] at hk
          exact_mod_cast hk
        rw [expanded, hp, hmantissa, neg_neg, multiplyFives_whole 1100 k (-p) p (by omega),
          neg_add_cancel, trim_of_tens rfl, distance_toDecimal _ rfl le_rfl, Scaled.number]
        simp
      · rcases ofBinary?_of_pos hfinite hzero hexponent with ⟨n, hn, hdistance, -⟩ | ⟨hnone, -⟩
        · obtain rfl := Option.some.inj (hn.symm.trans h)
          rw [← hk, ← hdistance, distance]
          simp
        · cases hnone.symm.trans h

/-- **Only numbers beyond all decimals have none.** -/
theorem ofBinary?_none (hfinite : x.isFinite = true) (h : ofBinary? x = none) :
    2 ^ 96 ≤ x.distance := by
  cases hzero : x.isZero with
  | true => cases (ofBinary?_of_isZero hzero hfinite).symm.trans h
  | false =>
      rcases le_or_gt x.exponent 0 with hexponent | hexponent
      · cases (ofBinary?_of_nonpos hfinite hzero hexponent).symm.trans h
      · rcases ofBinary?_of_pos hfinite hzero hexponent with ⟨n, hn, -⟩ | ⟨-, hlarge⟩
        · cases hn.symm.trans h
        · exact hlarge

end OfBinary

end FilterQuery.Decimal
