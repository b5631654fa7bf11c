import FilterQuery.Value
import FilterQuery.Proofs.BinaryDecimals
import FilterQuery.Proofs.Lines

/-!
# Numerals

A numeral without an exponent denotes a rational number.  It is read as an
integer if it has no point and the number lies in the 64-bit range, and as a
binary number that is the nearest one; if this is infinite, then the numeral
lies beyond all decimals too.
-/

namespace FilterQuery

open Number (signed)

namespace Number

/-- Reading digits on from a number shifts that by as many places. -/
theorem foldl_digits (cs : List Char) : ∀ n : ℕ,
    cs.foldl (fun n c => 10 * n + digitValue c) n = n * 10 ^ cs.length + ofDigits cs := by
  induction cs with
  | nil => simp [ofDigits]
  | cons c cs ih =>
      intro n
      rw [ofDigits, List.foldl_cons, List.foldl_cons, ih, ih, List.length_cons]
      ring

/-- The number of digits one after the other is shifted by those behind. -/
theorem ofDigits_append (cs ds : List Char) :
    ofDigits (cs ++ ds) = ofDigits cs * 10 ^ ds.length + ofDigits ds := by
  rw [ofDigits, List.foldl_append, foldl_digits ds]
  rfl

/-- Digits have their numbers in order. -/
theorem toNat_of_isDigit {c : Char} (h : c.isDigit = true) : 48 ≤ c.toNat ∧ c.toNat ≤ 57 := by
  simp only [Char.isDigit, Bool.and_eq_true, decide_eq_true_eq] at h
  exact h

/-- Digits have no case. -/
theorem toLower_of_isDigit {c : Char} (h : c.isDigit = true) : c.toLower = c := by
  obtain ⟨-, hhigh⟩ := toNat_of_isDigit h
  rw [Char.toLower, dif_neg]
  rintro ⟨hcapital, -⟩
  have hge : 65 ≤ c.toNat := hcapital
  omega

/-- Digits are characters of words. -/
theorem isWordChar_of_isDigit {c : Char} (h : c.isDigit = true) : Lexeme.isWordChar c = true := by
  obtain ⟨-, hhigh⟩ := toNat_of_isDigit h
  have hnumeral : Text.isNumeral c = true := by rwa [Text.isNumeral, if_pos (by omega)]
  exact Lexeme.isWordChar_of_isNameChar
    (by simp [Lexeme.isNameChar, Text.isLetterOrNumeral, hnumeral])

/-- A digit stands for a number below ten. -/
theorem digitValue_lt {c : Char} (h : c.isDigit = true) : digitValue c < 10 := by
  obtain ⟨-, hhigh⟩ := toNat_of_isDigit h
  have hzero : '0'.toNat = 48 := rfl
  rw [digitValue]
  omega

/-- Digits and nothing else. -/
def AllDigits (cs : List Char) : Prop := ∀ c ∈ cs, c.isDigit = true

/-- Digits one after the other are digits. -/
theorem AllDigits.append {cs ds : List Char} (hcs : AllDigits cs) (hds : AllDigits ds) :
    AllDigits (cs ++ ds) := by
  intro c hc
  rcases List.mem_append.mp hc with hc | hc
  · exact hcs c hc
  · exact hds c hc

/-- A number of so many digits is below that power of ten. -/
theorem ofDigits_lt {cs : List Char} (h : AllDigits cs) : ofDigits cs < 10 ^ cs.length := by
  induction cs with
  | nil => simp [ofDigits]
  | cons c cs ih =>
      have htail := ih fun d hd => h d (List.mem_cons_of_mem c hd)
      have hhead := digitValue_lt (h c List.mem_cons_self)
      have hunit : 0 < 10 ^ cs.length := by positivity
      have hle : (digitValue c + 1) * 10 ^ cs.length ≤ 10 * 10 ^ cs.length :=
        Nat.mul_le_mul_right _ hhead
      rw [← List.singleton_append, ofDigits_append, List.length_append, List.length_singleton,
        pow_add, pow_one]
      have hone : ofDigits [c] = digitValue c := by simp [ofDigits]
      rw [hone]
      linarith

end Number

open Number

/-- What may stand in front of the digits. -/
inductive NumeralSign where
  | none
  | plus
  | minus
  deriving DecidableEq

namespace NumeralSign

def chars : NumeralSign → List Char
  | none => []
  | plus => ['+']
  | minus => ['-']

def isNegative : NumeralSign → Bool
  | minus => true
  | _ => false

end NumeralSign

/-- A decimal numeral without an exponent: digits, perhaps with a sign in front
of them, and perhaps a point and more digits behind them. -/
structure Numeral where
  sign : NumeralSign := .none
  whole : List Char
  fraction : Option (List Char) := none
  whole_ne_nil : whole ≠ []
  whole_digits : AllDigits whole
  fraction_digits : ∀ ds ∈ fraction, AllDigits ds

namespace Numeral

variable (x : Numeral)

/-- The digits behind the point. -/
def decimals : List Char := x.fraction.getD []

/-- The numeral without its sign. -/
def body : List Char := x.whole ++ (x.fraction.elim [] fun ds => '.' :: ds)

def chars : List Char := x.sign.chars ++ x.body

def text : String := String.ofList x.chars

/-- All digits as one number. -/
def coefficient : ℕ := ofDigits (x.whole ++ x.decimals)

/-- The distance of the denoted number from zero. -/
def distance : ℚ := x.coefficient / 10 ^ x.decimals.length

/-- The number that a numeral denotes. -/
def value : ℚ := signed x.sign.isNegative x.distance

/-- No distance from zero is negative. -/
theorem distance_nonneg : 0 ≤ x.distance := by
  rw [distance]
  positivity

/-- The value of a numeral is as far from zero as its digits tell. -/
theorem abs_value : |x.value| = x.distance := by
  rw [value, abs_signed, abs_of_nonneg x.distance_nonneg]

/-- All digits behind the sign count in units of the last one. -/
theorem exists_numerator : ∃ z : ℤ, x.value = z / 10 ^ x.decimals.length := by
  rw [value, signed, distance]
  split
  · exact ⟨-x.coefficient, by push_cast; ring⟩
  · exact ⟨x.coefficient, by push_cast; rfl⟩

/-- The digits behind the point are digits. -/
theorem decimals_digits : AllDigits x.decimals := by
  rw [decimals]
  cases hfraction : x.fraction with
  | none => exact fun c hc => by cases hc
  | some ds => exact x.fraction_digits ds hfraction

/-- A coefficient has no more digits than the numeral. -/
theorem coefficient_lt : x.coefficient < 10 ^ (x.whole ++ x.decimals).length :=
  ofDigits_lt (x.whole_digits.append x.decimals_digits)

/-- Behind its sign a numeral begins with a digit. -/
theorem exists_first : ∃ c cs, x.body = c :: cs ∧ c.isDigit = true := by
  obtain ⟨c, cs, hwhole⟩ := List.exists_cons_of_ne_nil x.whole_ne_nil
  refine ⟨c, _, by rw [body, hwhole]; rfl, x.whole_digits c (by simp [hwhole])⟩

/-- The characters of numerals. -/
def IsNumeralChar (c : Char) : Prop := c.isDigit = true ∨ c = '+' ∨ c = '-' ∨ c = '.'

/-- A numeral is made of signs, digits and points. -/
theorem isNumeralChar_of_mem : ∀ c ∈ x.chars, IsNumeralChar c := by
  intro c hc
  rw [chars, body] at hc
  rcases List.mem_append.mp hc with hc | hc
  · cases hsign : x.sign <;> simp [hsign, NumeralSign.chars] at hc
    · exact .inr (.inl hc)
    · exact .inr (.inr (.inl hc))
  · rcases List.mem_append.mp hc with hc | hc
    · exact .inl (x.whole_digits c hc)
    · cases hfraction : x.fraction with
      | none =>
          rw [hfraction] at hc
          cases hc
      | some ds =>
          rw [hfraction] at hc
          rcases List.mem_cons.mp hc with rfl | hc
          · exact .inr (.inr (.inr rfl))
          · exact .inl (x.fraction_digits ds hfraction c hc)

/-- The sign of a numeral is in front of the rest. -/
theorem splitSign_chars : splitSign x.chars = (x.sign.isNegative, x.body) := by
  obtain ⟨c, cs, hbody, hdigit⟩ := x.exists_first
  rw [chars]
  cases x.sign with
  | plus => rfl
  | minus => rfl
  | none =>
      rw [NumeralSign.chars, List.nil_append, hbody]
      unfold splitSign
      split
      · next heq =>
          obtain rfl := (List.cons.inj heq).1
          cases hdigit
      · next heq =>
          obtain rfl := (List.cons.inj heq).1
          cases hdigit
      · rfl

/-- A numeral of an integer of the 64-bit range: no point in it. -/
def IsInt64 : Prop :=
  x.fraction = none ∧ (Int64.minValue.toInt : ℚ) ≤ x.value ∧ x.value ≤ (Int64.maxValue.toInt : ℚ)

/-- The integer that a numeral without a point denotes. -/
def integer : ℤ := if x.sign.isNegative then -(ofDigits x.whole : ℤ) else ofDigits x.whole

/-- Without a fraction the value is an integer. -/
theorem value_of_no_fraction (h : x.fraction = none) : x.value = x.integer := by
  rw [value, distance, coefficient, decimals, h, integer, signed]
  split
  · simp
  · simp

/-- A numeral is read as an integer exactly if it has no fraction. -/
theorem readInt?_chars : readInt? x.chars = if x.fraction = none then some x.integer else none := by
  have hnonempty : x.body.isEmpty = false := by
    obtain ⟨c, cs, hbody, -⟩ := x.exists_first
    rw [hbody]
    rfl
  rw [readInt?, splitSign_chars]
  dsimp only
  rw [readNat?, hnonempty]
  cases hfraction : x.fraction with
  | none =>
      have hbody : x.body = x.whole := by
        rw [body, hfraction]
        exact List.append_nil _
      have hall : x.whole.all Char.isDigit = true := List.all_eq_true.mpr x.whole_digits
      rw [hbody, hall]
      rfl
  | some ds =>
      have hpoint : x.body.all Char.isDigit = false := by
        rw [List.all_eq_false]
        exact ⟨'.', by simp [body, hfraction], by decide⟩
      rw [hpoint]
      rfl

/-- A numeral that is read as an integer denotes it. -/
theorem value_of_readInt64? {n : Int64} (h : readInt64? x.chars = some n) :
    x.value = n.toInt := by
  rw [readInt64?, readInt?_chars] at h
  split at h
  · next hfraction =>
      rw [Option.bind_some] at h
      split at h
      · next hrange =>
          obtain rfl := Option.some.inj h
          rw [value_of_no_fraction x hfraction,
            Int64.toInt_ofInt_of_le hrange.1 (hrange.2.trans_lt (by decide))]
      · cases h
  · cases h

/-- An integer in range is read. -/
theorem exists_readInt64? (h : x.IsInt64) : ∃ n, readInt64? x.chars = some n := by
  obtain ⟨hfraction, hlow, hhigh⟩ := h
  rw [value_of_no_fraction x hfraction] at hlow hhigh
  rw [readInt64?, readInt?_chars, if_pos hfraction, Option.bind_some,
    if_pos ⟨by exact_mod_cast hlow, by exact_mod_cast hhigh⟩]
  exact ⟨_, rfl⟩

end Numeral

namespace Number

/-- With many places in front of its digits a number is small. -/
theorem quotient_small {coefficient places : ℕ} (h : (digits coefficient).length + 60 ≤ places) :
    (coefficient : ℚ) / 10 ^ places ≤ 1 / 10 ^ 60 := by
  have hpos : 0 < (digits coefficient).length := Nat.length_toDigits_pos
  have hlt : coefficient < 10 ^ (digits coefficient).length :=
    (Nat.length_toDigits_le_iff (by norm_num) hpos).mp le_rfl
  have hle : coefficient * 10 ^ 60 ≤ 10 ^ places := by
    calc coefficient * 10 ^ 60
        ≤ 10 ^ (digits coefficient).length * 10 ^ 60 := Nat.mul_le_mul_right _ hlt.le
      _ = 10 ^ ((digits coefficient).length + 60) := (pow_add _ _ _).symm
      _ ≤ 10 ^ places := Nat.pow_le_pow_right (by norm_num) h
  rw [div_le_div_iff₀ (by positivity) (by positivity), one_mul]
  exact_mod_cast hle

/-- With many digits in front of the point a number is large. -/
theorem quotient_large {coefficient places : ℕ} (h : places + 60 < (digits coefficient).length) :
    10 ^ 60 ≤ (coefficient : ℚ) / 10 ^ places := by
  have hge : 10 ^ (places + 60) ≤ coefficient := by
    by_contra hlt
    have hlength : (digits coefficient).length ≤ places + 60 :=
      (Nat.length_toDigits_le_iff (by norm_num) (by omega)).mpr (not_le.mp hlt)
    omega
  rw [le_div_iff₀ (by positivity), ← pow_add, add_comm]
  exact_mod_cast hge

/-- A numeral is read as the nearest number, unless it is so small or so large
that its size alone decides. -/
theorem toBinary_cases (negative : Bool) (coefficient places : ℕ) :
    let q : ℚ := coefficient / 10 ^ places
    let y := (Literal.mk coefficient (-(places : ℤ))).toBinary negative
    y = Binary64.ofMagnitude negative 0 ∧ q ≤ 1 / 10 ^ 60 ∨
      y = Binary64.infinity negative ∧ 10 ^ 60 ≤ q ∨
      y = Binary64.ofRatio negative coefficient (10 ^ places) := by
  intro q y
  have hy : y = (Literal.mk coefficient (-(places : ℤ))).toBinary negative := rfl
  rw [Literal.toBinary] at hy
  dsimp only at hy
  split at hy
  · next hsmall =>
      refine .inl ⟨hy, ?_⟩
      rw [Bool.or_eq_true, decide_eq_true_eq, decide_eq_true_eq] at hsmall
      rcases hsmall with hzero | hsize
      · have hq : q = 0 := by
          show (coefficient : ℚ) / 10 ^ places = 0
          rw [hzero, Nat.cast_zero, zero_div]
        rw [hq]
        positivity
      · exact quotient_small (by omega)
  · next hnotsmall =>
      right
      split at hy
      · next hsize => exact .inl ⟨hy, quotient_large (by omega)⟩
      · right
        split at hy
        · next hpower =>
            obtain rfl : places = 0 := by omega
            simpa using hy
        · simpa using hy

variable {negative : Bool} {coefficient places : ℕ}

/-- **A finite number that a numeral is read as is near.** -/
theorem toBinary_near
    (hfinite : ((Literal.mk coefficient (-(places : ℤ))).toBinary negative).isFinite = true) :
    ((Literal.mk coefficient (-(places : ℤ))).toBinary negative).isNegative = negative ∧
      |((Literal.mk coefficient (-(places : ℤ))).toBinary negative).distance -
        coefficient / 10 ^ places| ≤ coefficient / 10 ^ places / 2 ^ 53 + 1 / 10 ^ 60 := by
  have hnonneg : (0 : ℚ) ≤ coefficient / 10 ^ places := by positivity
  rcases toBinary_cases negative coefficient places with ⟨hy, hsmall⟩ | ⟨hy, -⟩ | hy
  · rw [hy, Binary64.isNegative_ofMagnitude (by decide), Binary64.distance_zero, zero_sub, abs_neg,
      abs_of_nonneg hnonneg]
    exact ⟨rfl, hsmall.trans (le_add_of_nonneg_left (by positivity))⟩
  · rw [hy, Binary64.infinity, Binary64.isFinite_ofMagnitude _ le_rfl] at hfinite
    simp at hfinite
  · rw [hy] at hfinite ⊢
    have hnear := Binary64.ofRatio_near negative (by positivity) hfinite
    push_cast at hnear
    exact hnear

/-- **Whole numbers below `2 ^ 53` are read as they are.** -/
theorem toBinary_whole {k : ℕ} (hk : (coefficient : ℚ) / 10 ^ places = k) (hsmall : k < 2 ^ 53) :
    ((Literal.mk coefficient (-(places : ℤ))).toBinary negative).distance = k := by
  have hmul : coefficient = k * 10 ^ places := by
    rw [div_eq_iff (by positivity)] at hk
    exact_mod_cast hk
  rcases toBinary_cases negative coefficient places with ⟨hy, hle⟩ | ⟨hy, hle⟩ | hy
  · rw [hk] at hle
    have hlt : (k : ℚ) < 1 := hle.trans_lt (by norm_num)
    obtain rfl : k = 0 := Nat.lt_one_iff.mp (by exact_mod_cast hlt)
    rw [hy, Binary64.distance_zero]
    rfl
  · rw [hk] at hle
    have hlt : (k : ℚ) < 2 ^ 53 := by exact_mod_cast hsmall
    norm_num at hle hlt
    linarith
  · rw [hy]
    exact (Binary64.ofRatio_whole negative (by positivity) hmul hsmall).2

/-- A numeral that is read as no finite number denotes a large one. -/
theorem toBinary_infinite
    (h : ((Literal.mk coefficient (-(places : ℤ))).toBinary negative).isFinite = false) :
    2 ^ 96 ≤ (coefficient : ℚ) / 10 ^ places := by
  rcases toBinary_cases negative coefficient places with ⟨hy, -⟩ | ⟨-, hle⟩ | hy
  · rw [hy, Binary64.isFinite_ofMagnitude _ (by decide)] at h
    cases h
  · exact le_trans (by norm_num) hle
  · rw [hy] at h
    have hlarge := Binary64.ofRatio_infinite negative (by positivity) h
    push_cast at hlarge
    exact (pow_le_pow_right₀ (by norm_num) (by norm_num)).trans hlarge

end Number

namespace Numeral

variable (x : Numeral)

/-- The binary number nearest to a numeral. -/
def binary : Binary64 :=
  (Literal.mk x.coefficient (-(x.decimals.length : ℤ))).toBinary x.sign.isNegative

/-- The rest of a numeral is read as its coefficient and exponent. -/
theorem read?_body :
    Literal.read? x.body = some ⟨x.coefficient, -(x.decimals.length : ℤ)⟩ := by
  obtain ⟨c, cs, hwhole⟩ := List.exists_cons_of_ne_nil x.whole_ne_nil
  rw [Literal.read?, body, List.takeWhile_append_of_pos x.whole_digits,
    List.dropWhile_append_of_pos x.whole_digits, coefficient, decimals]
  cases hfraction : x.fraction with
  | none => simp [hwhole, readExponent?]
  | some ds =>
      have hdigits := x.fraction_digits ds hfraction
      have htake : ds.takeWhile Char.isDigit = ds := List.takeWhile_eq_self_iff.mpr hdigits
      have hdrop : ds.dropWhile Char.isDigit = [] := List.dropWhile_eq_nil_iff.mpr hdigits
      simp [hwhole, readExponent?, htake, hdrop]

/-- The text of a numeral is read as the nearest binary number. -/
theorem ofText?_text : Binary64.ofText? x.text = some x.binary := by
  obtain ⟨c, cs, hbody, hdigit⟩ := x.exists_first
  have hname : ∀ d ds, d.isDigit = false → String.ofList (x.body.map Char.toLower) ≠
      String.ofList (d :: ds) := by
    intro d ds hd heq
    rw [hbody, List.map_cons, String.ofList_inj] at heq
    rw [(List.cons.inj heq).1.symm, toLower_of_isDigit hdigit, hdigit] at hd
    cases hd
  rw [Binary64.ofText?, text, String.toList_ofList, splitSign_chars]
  dsimp only
  rw [if_neg, if_neg (hname 'n' ['a', 'n'] (by decide)), read?_body]
  · rfl
  · rw [Bool.or_eq_true, decide_eq_true_eq, decide_eq_true_eq, not_or]
    exact ⟨hname 'i' ['n', 'f'] (by decide),
      hname 'i' ['n', 'f', 'i', 'n', 'i', 't', 'y'] (by decide)⟩

end Numeral

namespace Decimal

/-- Digits in front of the point have to fit. -/
theorem run_overflow (rest : List Char) : ∀ (ws : List Char) (r : Reading),
    r.afterPoint = false → r.coefficient < bound → AllDigits ws →
    bound ≤ r.coefficient * 10 ^ ws.length + ofDigits ws → r.run (ws ++ rest) = none := by
  intro ws
  induction ws with
  | nil =>
      intro r _ hlt _ hge
      simp [ofDigits] at hge
      omega
  | cons c ws ih =>
      intro r hpoint hlt hdigits hge
      have hc : c.isDigit = true := hdigits c List.mem_cons_self
      rw [List.cons_append, Reading.run]
      simp only [hpoint, Bool.false_and, Bool.false_eq_true, if_false, hc, if_true]
      split
      · next hnext =>
          refine ih _ rfl hnext (fun d hd => hdigits d (List.mem_cons_of_mem c hd)) ?_
          have hsplit : ofDigits (c :: ws) = digitValue c * 10 ^ ws.length + ofDigits ws := by
            rw [ofDigits, List.foldl_cons, foldl_digits, Nat.mul_zero, Nat.zero_add]
          rw [hsplit, List.length_cons, pow_succ] at hge
          refine hge.trans (le_of_eq ?_)
          ring
      · rfl

end Decimal

namespace Numeral

variable (x : Numeral)

/-- A numeral beyond all decimals is read as none. -/
theorem decimal_ofText?_text (h : 2 ^ 96 ≤ x.distance) : Decimal.ofText? x.text = none := by
  have hwhole : Decimal.bound ≤ ofDigits x.whole := by
    by_contra hlt
    have hunit : (0 : ℚ) < 10 ^ x.decimals.length := by positivity
    rw [distance, le_div_iff₀ hunit, coefficient, ofDigits_append] at h
    have hrest := ofDigits_lt x.decimals_digits
    have hle : 2 ^ 96 * 10 ^ x.decimals.length ≤
        ofDigits x.whole * 10 ^ x.decimals.length + ofDigits x.decimals := by exact_mod_cast h
    have hsmall : (ofDigits x.whole + 1) * 10 ^ x.decimals.length ≤
        2 ^ 96 * 10 ^ x.decimals.length := by
      refine Nat.mul_le_mul_right _ ?_
      rw [Decimal.bound] at hlt
      omega
    linarith
  have hpositional : Decimal.ofPositional? x.chars = none := by
    rw [Decimal.ofPositional?, splitSign_chars]
    dsimp only
    rw [body, Decimal.run_overflow _ _ _ rfl (by decide) x.whole_digits (by simpa using hwhole)]
    rfl
  have hmarks : x.chars.dropWhile (fun c => !(c = 'e' || c = 'E')) = [] := by
    rw [List.dropWhile_eq_nil_iff]
    intro c hc
    rcases x.isNumeralChar_of_mem c hc with hdigit | rfl | rfl | rfl
    · have he : c ≠ 'e' := by
        rintro rfl
        cases hdigit
      have hE : c ≠ 'E' := by
        rintro rfl
        cases hdigit
      simp [he, hE]
    · decide
    · decide
    · decide
  rw [Decimal.ofText?, text, String.toList_ofList, hpositional]
  dsimp only
  rw [hmarks]

/-- A numeral opens and closes nothing. -/
theorem isPlain_chars : Lexeme.IsPlain x.chars := by
  intro c hc
  rcases x.isNumeralChar_of_mem c hc with hdigit | rfl | rfl | rfl
  · exact isWordChar_of_isDigit hdigit
  · decide +kernel
  · decide +kernel
  · decide +kernel

/-- There are no blanks around a numeral. -/
theorem trim_text : Text.trim x.text = x.text := by
  have hblank : ∀ c ∈ x.chars, Text.isBlank c = false := by
    intro c hc
    have hword := x.isPlain_chars c hc
    rw [Lexeme.isWordChar, Bool.and_eq_true, Bool.not_eq_true'] at hword
    exact hword.1
  have hkept : ∀ cs : List Char, (∀ c ∈ cs, Text.isBlank c = false) →
      cs.dropWhile Text.isBlank = cs := by
    intro cs hcs
    cases cs with
    | nil => rfl
    | cons c cs => rw [List.dropWhile_cons_of_neg (by simp [hcs c List.mem_cons_self])]
  rw [Text.trim, text, String.toList_ofList, Text.trimChars, hkept _ hblank,
    hkept _ fun c hc => hblank c (List.mem_reverse.mp hc), List.reverse_reverse]

end Numeral

end FilterQuery
