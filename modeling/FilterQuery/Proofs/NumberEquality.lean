import FilterQuery.Proofs.MixedComparisons

/-!
# Equality of values across the kinds of number

Equality of values is reflexive and symmetric, and comparisons are
antisymmetric.  But numbers of one sort that differ only in what is given up for
a comparison are equal to the same numbers of the other sort, and not to each
other.  Nothing else keeps equality from being transitive, or a comparison from
carrying over to equal values.
-/

namespace FilterQuery

namespace Value

/-- A number: whether it is a binary one, the number that it stands for, and the
one that it is compared as with numbers of the other sort. -/
inductive StandsFor : Value → Bool → ℚ → ℚ → Prop where
  | binary {x : Binary64} (h : x.isNaN = false) : StandsFor (.float x) true x.number x.comparand
  | exact {v : Value} {q : ℚ} (h : v.IsExact q) : StandsFor v false q (cut q)

/-- A value that two different numbers of the other sort are equal to: because
they have the same decimal, or because they are cut off alike. -/
inductive Blurs : Value → Value → Value → Prop where
  | digits {v : Value} {r : ℚ} {x y : Binary64} {d e : Decimal} (hv : v.IsExact r)
      (hx : Decimal.ofBinary? x = some d) (hy : Decimal.ofBinary? y = some e)
      (hsame : d.number = e.number) (hne : x.number ≠ y.number) : Blurs v (.float x) (.float y)
  | range {z : Binary64} {a b : Value} {p q : ℚ} (ha : a.IsExact p) (hb : b.IsExact q)
      (hsame : cutFrom ≤ p ∧ cutFrom ≤ q ∨ p ≤ -cutFrom ∧ q ≤ -cutFrom) (hne : p ≠ q) :
      Blurs (.float z) a b

section Numbers

variable {a b c : Value} {s t u : Bool} {p q r k m n : ℚ}

/-- **One comparison for all numbers.** -/
theorem StandsFor.compareNumbers? (ha : a.StandsFor s p m) (hb : b.StandsFor t q n) :
    a.compareNumbers? b = some (if s = t then compare p q else compare m n) := by
  cases ha with
  | binary hx =>
      cases hb with
      | binary hy => exact compareNumbers?_binary hx hy
      | exact hb => exact compareNumbers?_halfway hx hb
  | exact ha =>
      cases hb with
      | binary hy =>
          rw [ha.compareNumbers?_float hy]
          rfl
      | exact hb => exact compareNumbers?_exact ha hb

/-- What is given up keeps the order. -/
theorem StandsFor.mono (ha : a.StandsFor s p m) (hb : b.StandsFor s q n) (h : p ≤ q) : m ≤ n := by
  cases ha with
  | binary hx =>
      cases hb with
      | binary hy => exact Binary64.comparand_mono h
  | exact ha =>
      cases hb with
      | exact hb => exact cut_mono h

/-- Numbers of one sort that stand for the same are compared as the same with
the other sort. -/
theorem StandsFor.unique (ha : a.StandsFor s p m) (hb : b.StandsFor s p n) : m = n :=
  le_antisymm (ha.mono hb le_rfl) (hb.mono ha le_rfl)

/-- There are two sorts only. -/
theorem sort_eq (hst : s ≠ t) (hsu : s ≠ u) : t = u := by
  revert s t u
  decide

/-- **What two numbers are blurred by** gives up all that they differ in. -/
theorem StandsFor.blurs_iff (hb : b.StandsFor t q n) (ha : a.StandsFor s p m)
    (hc : c.StandsFor u r k) : b.Blurs a c ↔ t ≠ s ∧ s = u ∧ p ≠ r ∧ m = k := by
  constructor
  · intro h
    cases h with
    | digits hv hx hy hsame hne =>
        cases ha with
        | exact ha => cases ha
        | binary hx' =>
        cases hc with
        | exact hc => cases hc
        | binary hy' =>
        cases hb with
        | binary hb => cases hv
        | exact hb =>
            exact ⟨Bool.false_ne_true, rfl, hne,
              (Binary64.comparand_eq_iff hne).mpr ⟨_, _, hx, hy, hsame⟩⟩
    | range ha' hc' hsame hne =>
        cases hb with
        | exact hb => cases hb
        | binary hb =>
        cases ha with
        | binary ha => cases ha'
        | exact ha =>
        cases hc with
        | binary hc => cases hc'
        | exact hc =>
            obtain rfl := ha.unique ha'
            obtain rfl := hc.unique hc'
            exact ⟨Bool.false_ne_true.symm, rfl, hne, (cut_eq_iff hne).mpr hsame⟩
  · rintro ⟨hsort, rfl, hne, hsame⟩
    cases ha with
    | binary hx =>
        cases hc with
        | binary hy =>
        cases hb with
        | binary hb => exact absurd rfl hsort
        | exact hb =>
            obtain ⟨d, e, hd, he, hde⟩ := (Binary64.comparand_eq_iff hne).mp hsame
            exact .digits hb hd he hde hne
    | exact ha =>
        cases hc with
        | exact hc =>
        cases hb with
        | binary hb => exact .range ha hc ((cut_eq_iff hne).mp hsame) hne
        | exact hb => exact absurd rfl hsort

/-- What stands for a number has a numeric type. -/
theorem StandsFor.isNumeric (ha : a.StandsFor s p m) : a.valueType.isNumeric = true := by
  cases ha with
  | binary h => rfl
  | exact h => cases h <;> rfl

/-- A number is equal to what it compares as equal to. -/
theorem beq_of_isNumeric (ha : a.valueType.isNumeric = true) (b : Value) :
    (a == b) = (a.compareNumbers? b == some .eq) := by
  cases a <;> cases ha <;> rfl

/-- **Numbers of one sort are equal if they stand for the same**, and those of
two sorts if they are compared as the same. -/
theorem StandsFor.beq_iff (ha : a.StandsFor s p m) (hb : b.StandsFor t q n) :
    (a == b) = true ↔ if s = t then p = q else m = n := by
  rw [beq_of_isNumeric ha.isNumeric, ha.compareNumbers? hb, beq_iff_eq, Option.some_inj]
  split
  · exact compare_eq_iff_eq
  · exact compare_eq_iff_eq

/-- **Numbers equal to a third** are equal, unless it blurs them. -/
theorem StandsFor.beq_trans (ha : a.StandsFor s p m) (hb : b.StandsFor t q n)
    (hc : c.StandsFor u r k) (hab : (a == b) = true) (hbc : (b == c) = true) :
    (a == c) = true ↔ ¬ b.Blurs a c := by
  rw [ha.beq_iff hb] at hab
  rw [hb.beq_iff hc] at hbc
  rw [ha.beq_iff hc, hb.blurs_iff ha hc]
  by_cases hst : s = t
  · subst hst
    rw [if_pos rfl] at hab
    subst hab
    obtain rfl := ha.unique hb
    exact iff_of_true hbc fun hblurs => hblurs.1 rfl
  · rw [if_neg hst] at hab
    by_cases hsu : s = u
    · subst hsu
      rw [if_neg (Ne.symm hst)] at hbc
      rw [if_pos rfl]
      constructor
      · exact fun heq hblurs => hblurs.2.2.1 heq
      · intro hclear
        by_contra hne
        exact hclear ⟨Ne.symm hst, rfl, hne, hab.trans hbc⟩
    · obtain rfl := sort_eq hst hsu
      rw [if_pos rfl] at hbc
      subst hbc
      obtain rfl := hb.unique hc
      rw [if_neg hsu]
      exact iff_of_true hab fun hblurs => hsu hblurs.2.1

/-- **A number less than another** is less than what this is equal to, unless
the last blurs them. -/
theorem StandsFor.lt_trans_beq (ha : a.StandsFor s p m) (hb : b.StandsFor t q n)
    (hc : c.StandsFor u r k) (hab : a.compareNumbers? b = some .lt) (hbc : (b == c) = true) :
    (c.Blurs a b → a.compareNumbers? c = some .eq) ∧
      (¬ c.Blurs a b → a.compareNumbers? c = some .lt) := by
  rw [ha.compareNumbers? hb, Option.some_inj] at hab
  rw [hb.beq_iff hc] at hbc
  rw [ha.compareNumbers? hc, hc.blurs_iff ha hb]
  by_cases hst : s = t
  · subst hst
    rw [if_pos rfl, compare_lt_iff_lt] at hab
    by_cases hsu : s = u
    · subst hsu
      rw [if_pos rfl] at hbc
      subst hbc
      refine ⟨fun hblurs => absurd rfl hblurs.1, fun _ => ?_⟩
      rw [if_pos rfl, compare_lt_iff_lt.mpr hab]
    · rw [if_neg hsu] at hbc
      subst hbc
      rw [if_neg hsu]
      constructor
      · intro hblurs
        rw [compare_eq_iff_eq.mpr hblurs.2.2.2]
      · intro hclear
        have hne : m ≠ n := fun heq => hclear ⟨Ne.symm hsu, rfl, hab.ne, heq⟩
        rw [compare_lt_iff_lt.mpr (lt_of_le_of_ne (ha.mono hb hab.le) hne)]
  · rw [if_neg hst, compare_lt_iff_lt] at hab
    refine ⟨fun hblurs => absurd hblurs.2.1 hst, fun _ => ?_⟩
    by_cases hsu : s = u
    · subst hsu
      rw [if_neg (Ne.symm hst)] at hbc
      subst hbc
      have hlt : p < r := by
        by_contra hge
        exact absurd (hc.mono ha (not_lt.mp hge)) (not_le.mpr hab)
      rw [if_pos rfl, compare_lt_iff_lt.mpr hlt]
    · obtain rfl := sort_eq hst hsu
      rw [if_pos rfl] at hbc
      subst hbc
      obtain rfl := hb.unique hc
      rw [if_neg hsu, compare_lt_iff_lt.mpr hab]

end Numbers

/-- A value that is no custom one and not not-a-number; its decimals are those
of the format. -/
inductive IsOrdinary : Value → Prop where
  | boolean (b : Bool) : IsOrdinary (.boolean b)
  | string (s : String) : IsOrdinary (.string s)
  | binary {x : Binary64} (h : x.isNaN = false) : IsOrdinary (.float x)
  | exact {v : Value} {q : ℚ} (h : v.IsExact q) : IsOrdinary v

section Values

variable {a b c : Value}

theorem boolean_beq (p q : Bool) : (boolean p == boolean q) = (p == q) := rfl

theorem string_beq (s t : String) : (string s == string t) = (s == t) := rfl

/-- Custom values are equal if their types and identities are. -/
theorem custom_beq (v w : CustomValue) :
    (custom v == custom w) = (v.typeName == w.typeName && v.identity == w.identity) := rfl

/-- An ordinary value of a numeric type stands for a number. -/
theorem IsOrdinary.standsFor (h : a.IsOrdinary) (hnumeric : a.valueType.isNumeric = true) :
    ∃ s p m, a.StandsFor s p m := by
  cases h with
  | boolean b => cases hnumeric
  | string s => cases hnumeric
  | binary h => exact ⟨_, _, _, .binary h⟩
  | exact h => exact ⟨_, _, _, .exact h⟩

/-- An ordinary value is equal to itself. -/
theorem IsOrdinary.beq_self (h : a.IsOrdinary) : (a == a) = true := by
  cases h with
  | boolean b => cases b <;> rfl
  | string s => rw [string_beq, beq_self_eq_true]
  | binary h => rw [(StandsFor.binary h).beq_iff (.binary h), if_pos rfl]
  | exact h => rw [(StandsFor.exact h).beq_iff (.exact h), if_pos rfl]

/-- What is no number is equal to itself alone. -/
theorem IsOrdinary.eq_of_beq (h : a.IsOrdinary) (hnumeric : a.valueType.isNumeric = false)
    (hab : (a == b) = true) : a = b := by
  cases h with
  | boolean p =>
      cases b
      case boolean q =>
        rw [boolean_beq, beq_iff_eq] at hab
        rw [hab]
      all_goals cases hab
  | string s =>
      cases b
      case string t =>
        rw [string_beq, beq_iff_eq] at hab
        rw [hab]
      all_goals cases hab
  | binary h => cases hnumeric
  | exact h => cases h <;> cases hnumeric

/-- Equality is symmetric. -/
theorem beq_swap (a b : Value) : (b == a) = (a == b) := by
  have hnumbers : (b.compareNumbers? a == some .eq) = (a.compareNumbers? b == some .eq) := by
    rw [compareNumbers?_swap a b]
    cases a.compareNumbers? b with
    | none => rfl
    | some o => cases o <;> rfl
  cases a <;> cases b
  case boolean.boolean p q => rw [boolean_beq, boolean_beq, BEq.comm]
  case string.string s t => rw [string_beq, string_beq, BEq.comm]
  case custom.custom v w =>
    rw [custom_beq, custom_beq, @BEq.comm String, @BEq.comm Nat]
  all_goals exact hnumbers

/-- What is equal to a number is a number. -/
theorem isNumeric_of_beq (ha : a.valueType.isNumeric = true) (hab : (a == b) = true) :
    b.valueType.isNumeric = true := by
  rw [beq_of_isNumeric ha, beq_iff_eq] at hab
  exact (isNumeric_of_compareNumbers? (Option.ne_none_iff_exists'.mpr ⟨_, hab⟩)).2

/-- What is blurred is a number. -/
theorem Blurs.isNumeric (h : b.Blurs a c) : a.valueType.isNumeric = true := by
  cases h with
  | digits => rfl
  | range ha => exact (StandsFor.exact ha).isNumeric

/-- **Equality of values.**  It is reflexive and symmetric, comparisons are
antisymmetric, and both carry over to equal values, unless these are numbers
that blur what is compared. -/
theorem equality_carries_over_unless_blurred (ha : a.IsOrdinary) (hb : b.IsOrdinary)
    (hc : c.IsOrdinary) :
    (a == a) = true ∧ (b == a) = (a == b) ∧
      b.compareNumbers? a = (a.compareNumbers? b).map Ordering.swap ∧
      ((b == c) = true →
        ((a == b) = true → ((a == c) = true ↔ ¬ b.Blurs a c)) ∧
        (a.compareNumbers? b = some .lt →
          (c.Blurs a b → a.compareNumbers? c = some .eq) ∧
          (¬ c.Blurs a b → a.compareNumbers? c = some .lt))) := by
  refine ⟨ha.beq_self, beq_swap a b, compareNumbers?_swap a b, fun hbc => ⟨fun hab => ?_, ?_⟩⟩
  · cases hnumeric : a.valueType.isNumeric with
    | true =>
        have hnumeric' := isNumeric_of_beq hnumeric hab
        obtain ⟨s, p, m, ha⟩ := ha.standsFor hnumeric
        obtain ⟨t, q, n, hb⟩ := hb.standsFor hnumeric'
        obtain ⟨u, r, k, hc⟩ := hc.standsFor (isNumeric_of_beq hnumeric' hbc)
        exact ha.beq_trans hb hc hab hbc
    | false =>
        obtain rfl := ha.eq_of_beq hnumeric hab
        refine iff_of_true hbc fun hblurs => ?_
        rw [hblurs.isNumeric] at hnumeric
        cases hnumeric
  · intro hlt
    obtain ⟨hnumeric, hnumeric'⟩ :=
      isNumeric_of_compareNumbers? (Option.ne_none_iff_exists'.mpr ⟨_, hlt⟩)
    obtain ⟨s, p, m, ha⟩ := ha.standsFor hnumeric
    obtain ⟨t, q, n, hb⟩ := hb.standsFor hnumeric'
    obtain ⟨u, r, k, hc⟩ := hc.standsFor (isNumeric_of_beq hnumeric' hbc)
    exact ha.lt_trans_beq hb hc hlt hbc

end Values

/-- Two binary numbers half a unit apart that are equal to the same integer. -/
theorem integer_equal_to_two_binary_numbers :
    (Binary64.ofRatio false 4503599627370499 2).isNaN = false ∧
      (Binary64.ofRatio false 4503599627370500 2).isNaN = false ∧
      (Value.float (Binary64.ofRatio false 4503599627370499 2) ==
        Value.integer 2251799813685250) = true ∧
      (Value.integer 2251799813685250 ==
        Value.float (Binary64.ofRatio false 4503599627370500 2)) = true ∧
      (Value.float (Binary64.ofRatio false 4503599627370499 2) ==
        Value.float (Binary64.ofRatio false 4503599627370500 2)) = false := by
  decide +kernel

/-- An integer blurs the two binary numbers that it is equal to. -/
theorem integer_blurs_two_binary_numbers :
    (Value.integer 2251799813685250).Blurs
      (.float (Binary64.ofRatio false 4503599627370499 2))
      (.float (Binary64.ofRatio false 4503599627370500 2)) := by
  by_contra hclear
  have hsame := (equality_carries_over_unless_blurred
    (a := Value.float (Binary64.ofRatio false 4503599627370499 2))
    (c := Value.float (Binary64.ofRatio false 4503599627370500 2))
    (.binary (by decide +kernel)) (.exact (.integer 2251799813685250))
    (.binary (by decide +kernel))).2.2.2 (by decide +kernel)
  have hequal := (hsame.1 (by decide +kernel)).mpr hclear
  revert hequal
  decide +kernel

end Value

end FilterQuery
