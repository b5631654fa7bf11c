import FilterQuery.Proofs.Comparands
import FilterQuery.Proofs.FormulaMeaning
import FilterQuery.Proofs.WrittenOperators

/-!
# Numeric literals

A query of a filter that reads integers, with one of the built-in relations and
a numeral, holds of an element exactly if the integer is in this relation to the
number that the numeral is compared as.  This is one number for all elements and
relations, close to the one that the numeral denotes, and as good as that for
short numerals; but it need not be the same.
-/

namespace FilterQuery

open Lexeme

namespace Relation

/-- The relation between two numbers. -/
def Holds : Relation → ℚ → ℚ → Prop
  | has, a, b => a = b
  | equal, a, b => a = b
  | notEqual, a, b => a ≠ b
  | less, a, b => a < b
  | greater, a, b => a > b
  | lessEqual, a, b => a ≤ b
  | greaterEqual, a, b => a ≥ b

variable (r : Relation)

/-- A relation accepts a comparison if it holds of what is compared. -/
theorem accepts_compare (a b : ℚ) : r.accepts (compare a b) = true ↔ r.Holds a b := by
  rcases lt_trichotomy a b with hlt | rfl | hgt
  · rw [compare_lt_iff_lt.mpr hlt]
    cases r <;> simp [accepts, Holds, hlt, hlt.ne, hlt.le, not_lt.mpr hlt.le, not_le.mpr hlt]
  · rw [compare_eq_iff_eq.mpr rfl]
    cases r <;> simp [accepts, Holds]
  · rw [compare_gt_iff_gt.mpr hgt]
    cases r <;> simp [accepts, Holds, hgt, hgt.ne', hgt.le, not_lt.mpr hgt.le, not_le.mpr hgt]

/-- Each relation is an operator of the built-in table. -/
theorem find?_builtin : OperatorTable.builtin.find? r.token = some r.toOperator := by
  cases r <;> rfl

/-- An integer is compared with integers and other numbers, and an integer comes
first. -/
theorem rhsTypes_integer : r.toOperator.rhsTypes .integer = [.integer, .float, .decimal] := by
  cases r <;> rfl

/-- A relation has one handler for an integer and numbers that are not
decimals. -/
theorem resolve?_integer {type : ValueType} (h : type ∈ [ValueType.integer, .float]) :
    r.toOperator.resolve? .integer type = some r.ofNumbers := by
  rcases List.mem_pair.mp h with rfl | rfl
  · cases r <;> rfl
  · cases r <;> rfl

/-- The token of each relation is among the built-in ones. -/
theorem mem_alphabet : r.token ∈ OperatorTable.builtin.alphabet := by
  cases r <;> decide +kernel

end Relation

namespace Lexeme

/-- Built-in tokens are tokens of operators. -/
theorem builtin_isOperatorToken : ∀ op ∈ OperatorTable.builtin.alphabet, IsOperatorToken op :=
  fun _ => (Engine.Reachable.new : ({} : Engine Unit).Reachable).isOperatorToken

/-- The text of a filter with a numeral as its value. -/
def literalFilter (name : String) (r : Relation) (x : Numeral) : String := name ++ r.token ++ x.text

/-- A filter with a literal is written as name, token and digits. -/
theorem toList_literalFilter (name : String) (r : Relation) (x : Numeral) :
    (literalFilter name r x).toList = name.toList ++ r.token.toList ++ x.chars := by
  simp [literalFilter, Numeral.text]

variable {name : String} (hname : IsName name.toList) (r : Relation) (x : Numeral)

/-- No operator goes on into a numeral. -/
theorem operator?_literal :
    operator? OperatorTable.builtin.alphabet (r.token.toList ++ x.chars) =
      some (r.token, x.chars) := by
  obtain ⟨c, cs, hchars, hfree⟩ : ∃ c cs, x.chars = c :: cs ∧
      ∀ op ∈ OperatorTable.builtin.alphabet, c ∉ op.toList := by
    obtain ⟨c, cs, hbody, hdigit⟩ := x.exists_first
    rw [Numeral.chars]
    cases x.sign with
    | none =>
        refine ⟨c, cs, hbody, fun op hop => ?_⟩
        have hreserved : Engine.isReserved c = true := by
          obtain ⟨-, hhigh⟩ := Number.toNat_of_isDigit hdigit
          have hnumeral : Text.isNumeral c = true := by rwa [Text.isNumeral, if_pos (by omega)]
          simp [Engine.isReserved, Text.isLetterOrNumeral, hnumeral]
        exact (builtin_isOperatorToken op hop).not_mem hreserved
    | plus => exact ⟨'+', x.body, rfl, by decide +kernel⟩
    | minus => exact ⟨'-', x.body, rfl, by decide +kernel⟩
  rw [hchars]
  exact operator?_written (alphabet_isLongestFirst _) r.mem_alphabet hfree cs

include hname

/-- A filter with a literal has nothing in it that opens or closes. -/
theorem isPlain_literal : IsPlain (name.toList ++ r.token.toList ++ x.chars) := by
  intro c hc
  rcases List.mem_append.mp hc with hc | hc
  · rcases List.mem_append.mp hc with hc | hc
    · obtain ⟨first, tail, hcons, hfirst, htail⟩ := hname
      rw [hcons] at hc
      rcases List.mem_cons.mp hc with rfl | hc
      · rcases isNameChar_or_hash hfirst with hchar | rfl
        · exact isWordChar_of_isNameChar hchar
        · decide +kernel
      · exact isWordChar_of_isNameChar (htail c hc)
    · have hall : r.token.toList.all isWordChar = true := by
        cases r <;> decide +kernel
      exact List.all_eq_true.mp hall c hc
  · exact x.isPlain_chars c hc

/-- **A name, a built-in operator and a numeral are one filter.** -/
theorem scan_literal :
    ∃ place, scan OperatorTable.builtin.alphabet (literalFilter name r x) =
      .ok [.filter { name, operator := r.token, value := x.text } none place] := by
  have hop : IsOperatorToken r.token := builtin_isOperatorToken _ r.mem_alphabet
  have hbegins : ¬ BeginsLikeName r.token := by
    rintro (hunderscore | hpoint)
    · cases r <;> cases hunderscore
    · cases r <;> cases hpoint
  have hplain := isPlain_literal hname r x
  have hcombinator := combinator?_written hname hop x.chars
  have hfilter : plainFilter? OperatorTable.builtin.alphabet
      (name.toList ++ r.token.toList ++ x.chars) =
        some { name, operator := r.token, value := x.text } := by
    obtain ⟨first, tail, hcons, hfirst, htail⟩ := hname
    have hstops := stops_written hop hbegins x.chars
    have hwhole : String.ofList (first :: tail) = name := by rw [← hcons, String.ofList_toList]
    rw [List.append_assoc, hcons, List.cons_append, plainFilter?, if_pos hfirst,
      hstops.dropWhile_append htail, hstops.takeWhile_append htail, operator?_literal, hwhole]
    rfl
  have hsingle : single? OperatorTable.builtin.alphabet 0
      (name.toList ++ r.token.toList ++ x.chars ++ []) =
        .ok (some (.filter { name, operator := r.token, value := x.text } none
          (Token.ofChars 0 (name.toList ++ r.token.toList ++ x.chars)), [])) :=
    Ends.nothing.single?_append builtin_isOperatorToken hplain hcombinator hfilter
  rw [List.append_nil] at hsingle
  obtain ⟨first, more, hmore, -⟩ := hname.exists_cons (r.token.toList ++ x.chars)
  rw [← List.append_assoc] at hmore
  rw [scan, toList_literalFilter]
  rw [hmore] at hsingle hplain ⊢
  exact ⟨_, scanFrom_single (hplain first List.mem_cons_self) hsingle (scanFrom_nil _ _)⟩

end Lexeme

namespace Engine

variable {α : Type}

/-- The engine has the built-in operators and no parsers, and the name is that
of a filter of integers that reads `n` from the element. -/
structure ReadsInteger (engine : Engine α) (name : String) (e : α) (n : Int64) : Prop where
  operators : engine.operators = .builtin
  parsers : engine.parsers = []
  reads : ∃ found read get, engine.findFilter? name = some found ∧
    found.filter.type = .integer ∧ found.filter.parser = none ∧
      found.filter.source = .reader read ∧ read { name, captures := found.captures } = some get ∧
        get e = some (.integer n)

variable {engine : Engine α} {name : String} {e : α} {n : Int64}

/-- The text behind a built-in operator is parsed as a number of one kind after
the other. -/
theorem coerce?_literal (hparsers : engine.parsers = []) {filter : Filter α}
    (htype : filter.type = .integer) (hparser : filter.parser = none) (r : Relation)
    (text : String) :
    engine.coerce? filter (some r.toOperator) text =
      [ValueType.integer, .float, .decimal].findSome?
        fun type => (type.parse? text).map (type, ·) := by
  have hparse : ∀ type, engine.parseValue? type text = type.parse? text := by
    intro type
    rw [parseValue?, hparsers]
    rfl
  rw [coerce?]
  simp only [hparse, hparser, htype, Option.bind_none, Option.map_none, Option.none_or,
    Option.map_some, Option.join_some, r.rhsTypes_integer]
  cases hfound : [ValueType.integer, .float, .decimal].findSome?
      (fun type => (type.parse? text).map (type, ·)) with
  | some found => rfl
  | none =>
      have hinteger := List.findSome?_eq_none_iff.mp hfound .integer (by simp)
      rw [Option.none_or]
      exact hinteger

variable [BEq α]

/-- **The condition of a numeric literal** that compiles holds of an element
exactly if its integer is in the relation to the numeral's comparand. -/
theorem compileFilter_literal (h : engine.ReadsInteger name e n) (r : Relation) (x : Numeral)
    (token : Token)
    (hclean : (engine.compileFilter { name, operator := r.token, value := x.text } token).notes =
      []) :
    ((engine.compileFilter { name, operator := r.token, value := x.text } token).value.holds
      e).value = true ↔ r.Holds n.toInt x.comparand := by
  obtain ⟨found, read, get, hfound, htype, hparser, hsource, hread, hget⟩ := h.reads
  have hcoerce := coerce?_literal h.parsers htype hparser r x.text
  have hoperator : engine.operators.find? r.token = some r.toOperator := by
    rw [h.operators, r.find?_builtin]
  rw [compileFilter] at hclean ⊢
  simp only [hfound, arguments, hoperator] at hclean ⊢
  cases hvalue : [ValueType.integer, .float, .decimal].findSome?
      (fun type => (type.parse? x.text).map (type, ·)) with
  | none =>
      rw [hvalue] at hcoerce
      simp [hcoerce, failing, Noted.noting] at hclean
  | some parsed =>
      obtain ⟨type, v⟩ := parsed
      obtain ⟨htried, hcompare⟩ := x.compareNumbers?_parsed n hvalue
      rw [hvalue] at hcoerce
      have hhandler : handlerFor found.filter (some r.toOperator) type token r.token =
          pure (some r.ofNumbers) := by
        rw [handlerFor, htype, r.resolve?_integer htried]
      have hreading : (Reading.value { label := found.filter.label, read := some get } e).value =
          some (.integer n) := hget
      simp only [hcoerce, hsource, hread, Noted.value_bind, hhandler, Noted.value_pure,
        Condition.holds, hreading, Handler.related, Noted.noting, Relation.ofNumbers, hcompare,
        Option.any_some, r.accepts_compare]

/-- **Numeric literals compare as numbers close to those that they denote.**  A
valid query of one filter that reads integers, with a built-in relation and a
numeral, holds of an element exactly if its integer is in the relation to the
numeral's comparand, which lies within the slack around the number that is
denoted.  So the query means what it says of all integers beyond the slack, and
of all integers at all if the numeral is a whole number of the 64-bit range
without a point, has at most fifteen digits, or denotes a whole number below `2
^ 53`. -/
theorem numeric_literals_compare_closely (hreads : engine.ReadsInteger name e n)
    (hname : IsName name.toList) (relation : Relation) (x : Numeral) (mode : Mode)
    (hvalid : (engine.parse (literalFilter name relation x) mode).isValid = true) :
    let matched := ((engine.parse (literalFilter name relation x) mode).test e).value
    (matched = true ↔ relation.Holds n.toInt x.comparand) ∧ |x.comparand - x.value| ≤ x.slack ∧
      (x.IsShort ∨ x.slack < |(n.toInt : ℚ) - x.value| →
        (matched = true ↔ relation.Holds n.toInt x.value)) := by
  intro matched
  obtain ⟨place, hscan⟩ := scan_literal hname relation x
  rw [← hreads.operators, ← engine.alphabet_eq] at hscan
  obtain ⟨-, -, hclean, hholds⟩ := test_of_filter mode hscan hvalid
  have hmatched : matched = true ↔ relation.Holds n.toInt x.comparand := by
    have hmeans := compileFilter_literal hreads relation x place hclean
    rwa [hholds] at hmeans
  refine ⟨hmatched, x.comparand_near, fun hexact => hmatched.trans ?_⟩
  have hplace : compare (n.toInt : ℚ) x.comparand = compare (n.toInt : ℚ) x.value := by
    rcases hexact with hshort | hfar
    · exact Numeral.samePlace_of_isShort hshort n.toInt
    · exact Numeral.compare_of_far hfar
  rw [← relation.accepts_compare, ← relation.accepts_compare, hplace]

/-- An engine for integers with one filter, which reads them. -/
def ofIntegers : Engine Int64 := (({} : Engine Int64).addFilter (.ofGetter "n" id)).1

/-- A filter over integers reads them as such. -/
theorem ofIntegers_reads (n : Int64) : ofIntegers.ReadsInteger "n" n n where
  operators := rfl
  parsers := rfl
  reads := by
    refine ⟨{ filter := .ofGetter "n" id }, _, _, ?_, rfl, rfl, rfl, rfl, ?_⟩
    · exact findFilter?_of_single rfl (by decide +kernel)
    · exact congrArg (fun m => some (Value.integer m)) n.ofInt_toInt

/-- The text `n>-2.50`, of the integer `-2`. -/
theorem literal_with_a_fraction :
    let x : Numeral :=
      { sign := .minus, whole := ['2'], fraction := some ['5', '0'], whole_ne_nil := by decide
        whole_digits := List.all_eq_true.mp rfl
        fraction_digits := fun _ h => Option.some.inj h ▸ List.all_eq_true.mp rfl }
    let q := ofIntegers.parse (literalFilter "n" .greater x)
    literalFilter "n" .greater x = "n>-2.50" ∧ q.isValid = true ∧ x.IsShort ∧
      ((q.test (-2)).value = true ↔ Relation.greater.Holds (-2) x.value) := by
  intro x q
  have hname : IsName "n".toList := ⟨'n', [], rfl, rfl, fun d hd => by cases hd⟩
  have hvalid : q.isValid = true := by decide +kernel
  have hshort : x.IsShort := .inr (.inl (by decide))
  obtain ⟨-, -, hexact⟩ :=
    numeric_literals_compare_closely (ofIntegers_reads (-2)) hname .greater x .strict hvalid
  have hinteger : (((-2 : Int64).toInt : ℤ) : ℚ) = -2 := by
    rw [show (-2 : Int64).toInt = -2 by decide]
    norm_num
  rw [hinteger] at hexact
  exact ⟨by decide, hvalid, hshort, hexact (.inl hshort)⟩

/-- **A long numeral may compare as another number than it denotes.**  The query
`n=4503599627370497.5` holds of an integer. -/
theorem integer_equal_to_a_fraction :
    let x : Numeral :=
      { whole := "4503599627370497".toList, fraction := some ['5'], whole_ne_nil := by decide
        whole_digits := List.all_eq_true.mp rfl
        fraction_digits := fun _ h => Option.some.inj h ▸ List.all_eq_true.mp rfl }
    let q := ofIntegers.parse (literalFilter "n" .equal x)
    literalFilter "n" .equal x = "n=4503599627370497.5" ∧
      ofIntegers.ReadsInteger "n" 4503599627370498 4503599627370498 ∧ q.isValid = true ∧
        (q.test 4503599627370498).value = true ∧
          ¬ Relation.equal.Holds 4503599627370498 x.value := by
  intro x q
  have hvalue : x.value = 9007199254740995 / 2 := by
    have hcoefficient : x.coefficient = 45035996273704975 := by decide +kernel
    have hplaces : x.decimals.length = 1 := rfl
    rw [Numeral.value, Numeral.distance, hcoefficient, hplaces]
    norm_num [x, Number.signed, NumeralSign.isNegative]
  refine ⟨by decide, ofIntegers_reads _, by decide +kernel, by decide +kernel, ?_⟩
  rw [hvalue, Relation.Holds]
  norm_num

end Engine

end FilterQuery
