import FilterQuery.Proofs.FinalSigmas
import FilterQuery.Proofs.LongestOperators
import FilterQuery.Proofs.NumericLiterals

/-!
# One order behind the built-in relations

The handlers of the built-in operators come by their answers in several ways:
texts are equal by one test, in order by another and contain each other by a
third, numbers go through decimals or binary numbers, and booleans have no order
at all.  Yet the answers fit together: for any two values that can be compared
there is one `Ordering`, and each relation but containment accepts or refuses
it.

For texts this says that equality, with its shortcut for ASCII letters, is the
equality of the order: texts that differ at most in the case of ASCII letters
have the same lower-case form.  A sigma does not get in the way, because a
letter and its capital beside it tell it the same.
-/

namespace FilterQuery

namespace Text

/-- A character that is moved to lower case is an ASCII capital. -/
theorem capital_of_toLower_ne {c : Char} (h : c.toLower ≠ c) : 65 ≤ c.toNat ∧ c.toNat ≤ 90 := by
  rw [Char.toLower] at h
  split at h
  · next hcapital => exact hcapital
  · exact absurd rfl h

/-- What relates each character to itself and the 26 capitals to their small
letters relates every character to the one it is moved to. -/
theorem toLower_cases {P : Char → Char → Prop} (hself : ∀ c, P c c)
    (hcapital : ∀ n : Fin 26, P (Char.ofNat (65 + n)) (Char.ofNat (65 + n)).toLower) (c : Char) :
    P c c.toLower := by
  by_cases hc : c.toLower = c
  · rw [hc]
    exact hself c
  · obtain ⟨hlow, hhigh⟩ := capital_of_toLower_ne hc
    have hofNat : Char.ofNat (65 + (⟨c.toNat - 65, by omega⟩ : Fin 26)) = c := by
      rw [show 65 + (c.toNat - 65) = c.toNat by omega, Char.ofNat_toNat]
    rw [← hofNat]
    exact hcapital _

theorem isCased_toLower (c : Char) : isCased c.toLower = isCased c :=
  toLower_cases (P := fun c d => isCased d = isCased c) (fun _ => rfl) (by decide) c

theorem isCaseIgnorable_toLower (c : Char) : isCaseIgnorable c.toLower = isCaseIgnorable c :=
  toLower_cases (P := fun c d => isCaseIgnorable d = isCaseIgnorable c) (fun _ => rfl) (by decide) c

/-- Whether cased letters follow does not depend on their case. -/
theorem casedAhead_toLower (cs : List Char) : casedAhead (cs.map Char.toLower) = casedAhead cs := by
  induction cs with
  | nil => rfl
  | cons c cs ih =>
      cases hc : isCaseIgnorable c with
      | true => simpa [casedAhead, isCaseIgnorable_toLower, hc] using ih
      | false => simp [casedAhead, isCaseIgnorable_toLower, isCased_toLower, hc]

/-- Characters have the lower-case form of their ASCII lower case, whatever
stands around them. -/
theorem image_toLower (before : List Char) (c : Char) (after : List Char) :
    image (before.map Char.toLower) c.toLower (after.map Char.toLower) = image before c after := by
  have hsigma : c.toLower = 'Σ' ↔ c = 'Σ' :=
    toLower_cases (P := fun c d => d = 'Σ' ↔ c = 'Σ') (fun _ => Iff.rfl) (by decide) c
  have hdotted : c.toLower = 'İ' ↔ c = 'İ' :=
    toLower_cases (P := fun c d => d = 'İ' ↔ c = 'İ') (fun _ => Iff.rfl) (by decide) c
  have hplain : lowercaseChar c.toLower = lowercaseChar c :=
    toLower_cases (P := fun c d => lowercaseChar d = lowercaseChar c) (fun _ => rfl) (by decide) c
  simp only [image, casedAhead_toLower, hsigma, hdotted, hplain]

/-- Lower case does not depend on the case of ASCII letters. -/
theorem lowercaseFrom_toLower (before cs : List Char) :
    lowercaseFrom (before.map Char.toLower) (cs.map Char.toLower) = lowercaseFrom before cs := by
  induction cs generalizing before with
  | nil => rfl
  | cons c cs ih =>
      have hcons : ∀ before c cs,
          lowercaseFrom before (c :: cs) = image before c cs ++ lowercaseFrom (c :: before) cs :=
        fun _ _ _ => rfl
      rw [List.map_cons, hcons, hcons, image_toLower, ← List.map_cons, ih]

/-- **Texts that differ at most in the case of ASCII letters have the same
lower-case form.** -/
theorem lowercase_eq_of_eqIgnoreAsciiCase {a b : String} (h : eqIgnoreAsciiCase a b = true) :
    lowercase a = lowercase b := by
  have hsame : a.toList.map Char.toLower = b.toList.map Char.toLower := by
    simpa [eqIgnoreAsciiCase] using h
  rw [lowercase, lowercase, ← lowercaseFrom_toLower [] a.toList, hsame, lowercaseFrom_toLower]

/-- Only the same characters are equally placed. -/
theorem compareChars_eq_eq {as bs : List Char} : compareChars as bs = .eq ↔ as = bs := by
  induction as generalizing bs with
  | nil =>
      cases bs with
      | nil => exact iff_of_true rfl rfl
      | cons b bs => exact iff_of_false nofun nofun
  | cons a as ih =>
      cases bs with
      | nil => exact iff_of_false nofun nofun
      | cons b bs =>
          rw [compareChars, Ordering.then_eq_eq, Nat.compare_eq_eq, ih, List.cons.injEq,
            Char.toNat_inj]

/-- The order of characters is transitive. -/
theorem compareChars_lt_trans {as bs cs : List Char} (hab : compareChars as bs = .lt)
    (hbc : compareChars bs cs = .lt) : compareChars as cs = .lt := by
  rw [compareChars_eq_lt] at hab hbc ⊢
  exact List.lt_trans hab hbc

end Text

namespace StringComparison

open Text

variable (comparison : StringComparison)

/-- What the order looks at in a text. -/
def form : StringComparison → String → String
  | ordinal, s => s
  | ignoreCase, s => lowercase s

/-- Texts are ordered by what the comparison looks at. -/
theorem compare_eq (s t : String) : comparison.compare s t =
    compareChars (comparison.form s).toList (comparison.form t).toList := by
  cases comparison <;> rfl

/-- **Texts are equal exactly if neither comes before the other.** -/
theorem equals_eq (s t : String) : comparison.equals s t = (comparison.compare s t == .eq) := by
  have heq : (comparison.compare s t == .eq) = true ↔ comparison.form s = comparison.form t := by
    rw [beq_iff_eq, compare_eq, compareChars_eq_eq, String.toList_inj]
  rw [Bool.eq_iff_iff, heq]
  cases comparison with
  | ordinal => exact beq_iff_eq
  | ignoreCase =>
      rw [equals, Bool.or_eq_true, beq_iff_eq]
      exact or_iff_right_of_imp lowercase_eq_of_eqIgnoreAsciiCase

/-- The order of texts is reversed with them. -/
theorem compare_swap (s t : String) : comparison.compare t s = (comparison.compare s t).swap := by
  rw [compare_eq, compare_eq, compareChars_swap]

/-- A text contains every text that it equals. -/
theorem contains_of_equals {s t : String} (h : comparison.equals s t = true) :
    comparison.contains s t = true := by
  rw [equals_eq, beq_iff_eq, compare_eq, compareChars_eq_eq] at h
  cases comparison with
  | ordinal => exact isInfix_iff.mpr (h ▸ List.infix_rfl)
  | ignoreCase => exact isInfix_iff.mpr (h ▸ List.infix_rfl)

end StringComparison

namespace Relation

/-- What a built-in operator answers for two values: its handler for their types
decides, if it has one. -/
def answer? (r : Relation) (comparison : StringComparison) (a b : Value) : Option Bool :=
  (OperatorTable.builtin.find? r.token).bind fun op =>
    (op.resolve? a.valueType b.valueType).map fun handler => handler.holds a b comparison

/-- The relation that holds where the given one does not. -/
def opposite : Relation → Relation
  | has | equal => notEqual
  | notEqual => equal
  | less => greaterEqual
  | greaterEqual => less
  | greater => lessEqual
  | lessEqual => greater

/-- The relation that holds the other way round. -/
def swapped : Relation → Relation
  | has => has
  | equal => equal
  | notEqual => notEqual
  | less => greater
  | greater => less
  | lessEqual => greaterEqual
  | greaterEqual => lessEqual

theorem accepts_opposite (r : Relation) (o : Ordering) : r.opposite.accepts o = !r.accepts o := by
  cases r <;> cases o <;> rfl

theorem accepts_swapped (r : Relation) (o : Ordering) : r.swapped.accepts o.swap = r.accepts o := by
  cases r <;> cases o <;> rfl

/-- No relation is the opposite of containment. -/
theorem opposite_ne_has (r : Relation) : r.opposite ≠ has := by
  cases r <;> nofun

/-- Only containment swaps to itself as containment. -/
theorem swapped_ne_has {r : Relation} (h : r ≠ has) : r.swapped ≠ has := by
  cases r
  case has => exact absurd rfl h
  all_goals nofun

/-- Two texts, two booleans, or two numbers that have an order. -/
inductive IsComparable : Value → Value → Prop where
  | strings (s t : String) : IsComparable (.string s) (.string t)
  | booleans (p q : Bool) : IsComparable (.boolean p) (.boolean q)
  | numbers {a b : Value} (h : a.compareNumbers? b ≠ none) : IsComparable a b

/-- The answers for two values fit together. -/
structure Coheres (comparison : StringComparison) (a b : Value) : Prop where
  /-- Every operator has a handler for texts and numbers, and those of equality
  for booleans. -/
  handled : ∀ r : Relation, r.answer? comparison a b ≠ none ↔
    a.boolean? = none ∨ r ∈ [has, equal, notEqual]
  /-- A relation holds exactly if its opposite does not. -/
  opposite : ∀ r : Relation, r ≠ has →
    r.opposite.answer? comparison a b = (r.answer? comparison a b).map (!·)
  /-- Where values are in order, exactly one of the three holds. -/
  one : less.answer? comparison a b ≠ none →
    ∃! r, r ∈ [less, equal, greater] ∧ r.answer? comparison a b = some true
  /-- A relation holds exactly if the swapped one does of the swapped values. -/
  swapped : ∀ r : Relation, r ≠ has → r.swapped.answer? comparison b a = r.answer? comparison a b
  /-- Equal values have each other. -/
  has_of_equal : equal.answer? comparison a b = some true → has.answer? comparison a b = some true
  /-- Values that are no texts have each other exactly if they are equal. -/
  has_eq_equal : a.string? = none → has.answer? comparison a b = equal.answer? comparison a b

section Answers

variable {comparison : StringComparison} {a b : Value}

/-- A built-in relation answers by the handler of its own operator. -/
theorem answer?_eq (r : Relation) : r.answer? comparison a b =
    (r.toOperator.resolve? a.valueType b.valueType).map fun handler =>
      handler.holds a b comparison := by
  rw [answer?, find?_builtin, Option.bind_some]

/-- Every built-in relation has a handler for texts. -/
theorem resolve?_strings (r : Relation) :
    r.toOperator.resolve? .string .string = some r.ofStrings := by
  cases r <;> rfl

/-- Every built-in relation has a handler for each pair of numbers. -/
theorem resolve?_numbers (r : Relation) {lhs rhs : ValueType} (hlhs : lhs.isNumeric = true)
    (hrhs : rhs.isNumeric = true) : r.toOperator.resolve? lhs rhs = some r.ofNumbers := by
  cases lhs <;> cases hlhs <;> cases rhs <;> cases hrhs <;> cases r <;> rfl

/-- **Each relation of texts accepts or refuses their order**, but for
containment. -/
theorem answer?_strings {r : Relation} (hr : r ≠ has) (s t : String) :
    r.answer? comparison (.string s) (.string t) =
      some (r.accepts (comparison.compare s t)) := by
  rw [answer?_eq, Value.valueType, Value.valueType, resolve?_strings, Option.map_some]
  cases r with
  | has => exact absurd rfl hr
  | equal => exact congrArg some (comparison.equals_eq s t)
  | notEqual => exact congrArg (some !·) (comparison.equals_eq s t)
  | _ => rfl

/-- Containment of texts is what the comparison takes for it. -/
theorem has_answer?_strings (s t : String) :
    has.answer? comparison (.string s) (.string t) = some (comparison.contains s t) := by
  rw [answer?_eq, Value.valueType, Value.valueType, resolve?_strings]
  rfl

/-- **Each relation of numbers accepts or refuses their order.** -/
theorem answer?_numbers {o : Ordering} (ho : a.compareNumbers? b = some o) (r : Relation) :
    r.answer? comparison a b = some (r.accepts o) := by
  have hsome : a.compareNumbers? b ≠ none := by simp [ho]
  obtain ⟨ha, hb⟩ := Value.isNumeric_of_compareNumbers? hsome
  have hholds : (a.compareNumbers? b).any r.accepts = r.accepts o := by rw [ho, Option.any_some]
  rw [answer?_eq, resolve?_numbers r ha hb, Option.map_some, ← hholds]
  rfl

/-- Of the three, exactly one accepts an order. -/
theorem exists_accepting (o : Ordering) : ∃ r ∈ [less, equal, greater],
    ∀ r' ∈ [less, equal, greater], r'.accepts o = true ↔ r' = r := by
  cases o with
  | lt => exact ⟨less, by decide, by decide⟩
  | eq => exact ⟨equal, by decide, by decide⟩
  | gt => exact ⟨greater, by decide, by decide⟩

/-- **Answers that go by one order fit together.** -/
theorem Coheres.of_order {o : Ordering} {h : Bool} (hboolean : a.boolean? = none)
    (hanswer : ∀ r : Relation, r ≠ has → r.answer? comparison a b = some (r.accepts o))
    (hswap : ∀ r : Relation, r ≠ has → r.answer? comparison b a = some (r.accepts o.swap))
    (hhas : has.answer? comparison a b = some h) (himplied : o = .eq → h = true)
    (hother : a.string? = none → h = has.accepts o) : Coheres comparison a b where
  handled r := by
    refine iff_of_true ?_ (.inl hboolean)
    by_cases hr : r = has
    · simp [hr, hhas]
    · simp [hanswer r hr]
  opposite r hr := by
    rw [hanswer _ r.opposite_ne_has, hanswer r hr, accepts_opposite, Option.map_some]
  one _ := by
    obtain ⟨r, hmem, hone⟩ := exists_accepting o
    have hne : ∀ r' ∈ [less, equal, greater], r' ≠ has := by decide
    refine ⟨r, ⟨hmem, ?_⟩, fun r' hr' => (hone r' hr'.1).mp ?_⟩
    · rw [hanswer r (hne r hmem), (hone r hmem).mpr rfl]
    · have hanswered := hr'.2
      rw [hanswer r' (hne r' hr'.1)] at hanswered
      exact Option.some.inj hanswered
  swapped r hr := by
    rw [hswap _ (swapped_ne_has hr), hanswer r hr, accepts_swapped]
  has_of_equal hequal := by
    rw [hanswer equal nofun] at hequal
    rw [hhas, himplied (beq_iff_eq.mp (Option.some.inj hequal))]
  has_eq_equal hstring := by
    rw [hhas, hother hstring, hanswer equal nofun]
    rfl

/-- Relations between texts fit together. -/
theorem coheres_strings (s t : String) : Coheres comparison (.string s) (.string t) := by
  refine .of_order (o := comparison.compare s t) rfl (fun r hr => answer?_strings hr s t)
    (fun r hr => ?_) (has_answer?_strings s t) (fun heq => ?_) nofun
  · rw [answer?_strings hr, comparison.compare_swap]
  · exact comparison.contains_of_equals (by rw [comparison.equals_eq, heq]; rfl)

/-- Relations between numbers that have an order fit together. -/
theorem coheres_numbers (h : a.compareNumbers? b ≠ none) : Coheres comparison a b := by
  obtain ⟨o, ho⟩ := Option.ne_none_iff_exists'.mp h
  have hswap : b.compareNumbers? a = some o.swap := by rw [Value.compareNumbers?_swap, ho]; rfl
  have hboolean : a.boolean? = none := by
    cases a with
    | boolean p => cases (Value.isNumeric_of_compareNumbers? h).1
    | _ => rfl
  refine .of_order hboolean (fun r _ => answer?_numbers ho r) (fun r _ => answer?_numbers hswap r)
    (answer?_numbers ho has) (fun heq => ?_) (fun _ => rfl)
  rw [heq]
  rfl

/-- Booleans are only equal or not. -/
theorem answer?_booleans (r : Relation) (p q : Bool) :
    r.answer? comparison (.boolean p) (.boolean q) =
      if r ∈ [has, equal, notEqual] then some (r.accepts (compare p q)) else none := by
  rw [answer?_eq]
  cases r <;> rfl

/-- Relations between booleans fit together. -/
theorem coheres_booleans (p q : Bool) : Coheres comparison (.boolean p) (.boolean q) where
  handled r := by
    rw [answer?_booleans]
    cases r <;> simp [Value.boolean?]
  opposite r hr := by
    rw [answer?_booleans, answer?_booleans, accepts_opposite]
    cases r <;> rfl
  one hless := absurd (answer?_booleans less p q) hless
  swapped r hr := by
    rw [answer?_booleans, answer?_booleans]
    cases p <;> cases q <;> cases r <;> rfl
  has_of_equal h := by
    rw [answer?_booleans] at h ⊢
    exact h
  has_eq_equal _ := by
    rw [answer?_booleans, answer?_booleans]
    rfl

/-- Relations between comparable values fit together. -/
theorem IsComparable.coheres (h : IsComparable a b) : Coheres comparison a b := by
  cases h with
  | strings s t => exact coheres_strings s t
  | booleans p q => exact coheres_booleans p q
  | numbers h => exact coheres_numbers h

end Answers

/-- **The built-in relations are one coherent order**: their answers fit
together for any two values that can be compared, and texts are in a transitive
order. -/
theorem builtin_relations_are_one_order (comparison : StringComparison) :
    (∀ a b, IsComparable a b → Coheres comparison a b) ∧
    ∀ s t u : String, less.answer? comparison (.string s) (.string t) = some true →
      less.answer? comparison (.string t) (.string u) = some true →
      less.answer? comparison (.string s) (.string u) = some true := by
  refine ⟨fun a b h => h.coheres, fun s t u hst htu => ?_⟩
  have hless : ∀ x y : String, less.answer? comparison (.string x) (.string y) = some true ↔
      comparison.compare x y = .lt := by
    intro x y
    rw [answer?_strings (r := less) nofun, Option.some.injEq, accepts, beq_iff_eq]
  rw [hless, StringComparison.compare_eq] at hst htu ⊢
  exact Text.compareChars_lt_trans hst htu

/-- Texts that only ASCII case tells apart, with a sigma at the end of a word,
and an integer beside a float that lies between two integers. -/
theorem order_of_texts_and_numbers :
    IsComparable (.string "ΟΔΟΣ a") (.string "οδος A") ∧
    has.answer? .ignoreCase (.string "ΟΔΟΣ a") (.string "οδος A") = some true ∧
    greater.answer? .ignoreCase (.string "b") (.string "A") = some true ∧
    less.answer? .ignoreCase (.string "A") (.string "C") = some true ∧
    IsComparable (.integer 2) (.float (.ofRatio false 5 2)) ∧
    lessEqual.answer? .ignoreCase (.integer 2) (.float (.ofRatio false 5 2)) = some true := by
  obtain ⟨hcoheres, htrans⟩ := builtin_relations_are_one_order .ignoreCase
  have hword : IsComparable (.string "ΟΔΟΣ a") (.string "οδος A") := .strings _ _
  have hletters : IsComparable (.string "A") (.string "b") := .strings _ _
  have hnumbers : IsComparable (.integer 2) (.float (.ofRatio false 5 2)) :=
    .numbers (by decide +kernel)
  refine ⟨hword, (hcoheres _ _ hword).has_of_equal (by decide +kernel), ?_, ?_, hnumbers, ?_⟩
  · exact ((hcoheres _ _ hletters).swapped less nofun).trans (by decide +kernel)
  · exact htrans _ "b" _ (by decide +kernel) (by decide +kernel)
  · exact ((hcoheres _ _ hnumbers).opposite greater nofun).trans (by decide +kernel)

end Relation

end FilterQuery
