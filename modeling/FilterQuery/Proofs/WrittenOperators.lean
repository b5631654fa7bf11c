import FilterQuery.Proofs.Legibility
import FilterQuery.Proofs.LongestOperators

/-!
# Operators that can be written

What follows the name of a filter is its operator if the name ends there.  A
name goes on through letters, numerals, underscores and points; registration
keeps letters and numerals out of operators, but not the other two.  So an
operator can be written behind a name exactly if it begins with neither of
these: the name takes such a beginning for its own.
-/

namespace FilterQuery

open Engine (isReserved)
open Text (byteLength isBlank)

/-- The operator begins with a character that names go on with. -/
def BeginsLikeName (op : String) : Prop :=
  op.toList.head? = some '_' ∨ op.toList.head? = some '.'

namespace Lexeme

/-- A filter whose value is quoted, as it is written. -/
def quotedFilter (name op value : String) : String := name ++ op ++ "\"" ++ value ++ "\""

/-- The characters of a filter with a quoted value. -/
theorem toList_quotedFilter (name op value : String) :
    (quotedFilter name op value).toList =
      name.toList ++ op.toList ++ '"' :: (value.toList ++ ['"']) := by
  simp [quotedFilter, String.toList_append]

/-- Nothing among the characters ends a keyword or begins a block. -/
def IsUnbroken (front : List Char) : Prop :=
  ∀ c ∈ front, isBlank c = false ∧ c ≠ '(' ∧ c ≠ '"' ∧ c ≠ '\x7b'

/-- Letters and numerals are not blank. -/
theorem isBlank_of_isLetterOrNumeral {c : Char} (h : Text.isLetterOrNumeral c = true) :
    isBlank c = false := by
  by_contra hblank
  have hnone := Text.isLetterOrNumeral_of_isBlank (eq_true_of_ne_false hblank)
  exact absurd (h.symm.trans hnone) (by decide)

/-- A character that names go on with stands alone nowhere. -/
theorem isUnbroken_of_isNameChar {c : Char} (h : isNameChar c = true) :
    isBlank c = false ∧ c ≠ '(' ∧ c ≠ '"' ∧ c ≠ '\x7b' := by
  have hblank : isBlank c = false := by
    rw [isNameChar, Bool.or_eq_true, Bool.or_eq_true, decide_eq_true_eq, decide_eq_true_eq] at h
    rcases h with (hword | rfl) | rfl
    · exact isBlank_of_isLetterOrNumeral hword
    · decide +kernel
    · decide +kernel
  refine ⟨hblank, ?_, ?_, ?_⟩
  · rintro rfl
    exact absurd h (by decide +kernel)
  · rintro rfl
    exact absurd h (by decide +kernel)
  · rintro rfl
    exact absurd h (by decide +kernel)

/-- The first character of a name goes on in it, or marks a toggle. -/
theorem isNameChar_or_hash {c : Char} (h : isNameStart c = true) :
    isNameChar c = true ∨ c = '#' := by
  rw [isNameStart, Bool.or_eq_true, Bool.or_eq_true, decide_eq_true_eq, decide_eq_true_eq] at h
  rcases h with (hletter | rfl) | rfl
  · exact .inl (by simp [isNameChar, Text.isLetterOrNumeral, hletter])
  · exact .inl rfl
  · exact .inr rfl

/-- The first character of a name is neither blank nor a parenthesis. -/
theorem isNotDelimiter {c : Char} (h : isNameStart c = true) :
    isBlank c = false ∧ c ≠ '(' ∧ c ≠ ')' := by
  have hclose : c ≠ ')' := by
    rintro rfl
    exact absurd h (by decide +kernel)
  rcases isNameChar_or_hash h with hname | rfl
  · exact ⟨(isUnbroken_of_isNameChar hname).1, (isUnbroken_of_isNameChar hname).2.1, hclose⟩
  · decide +kernel

/-- A name has a first character. -/
theorem IsName.exists_cons {name : List Char} (h : IsName name) (rest : List Char) :
    ∃ first more, name ++ rest = first :: more ∧ isNameStart first = true := by
  obtain ⟨first, tail, rfl, hfirst, -⟩ := h
  exact ⟨first, tail ++ rest, rfl, hfirst⟩

/-- A name has nothing in it that opens, closes or quotes. -/
theorem IsName.isUnbroken {name : List Char} (h : IsName name) : IsUnbroken name := by
  obtain ⟨first, tail, rfl, hfirst, htail⟩ := h
  intro c hc
  rcases List.mem_cons.mp hc with rfl | hc
  · rcases isNameChar_or_hash hfirst with hname | rfl
    · exact isUnbroken_of_isNameChar hname
    · decide +kernel
  · exact isUnbroken_of_isNameChar (htail c hc)

/-- Nor has the token of an operator. -/
theorem isUnbroken_of_isOperatorToken {op : String} (h : IsOperatorToken op) :
    IsUnbroken op.toList := by
  intro c hc
  have hfree := h.unreserved c hc
  rw [isReserved, Bool.or_eq_false_iff, Bool.or_eq_false_iff] at hfree
  refine ⟨hfree.1.1, ?_, ?_, ?_⟩
  · rintro rfl
    exact h.not_mem rfl hc
  · rintro rfl
    exact h.not_mem rfl hc
  · rintro rfl
    exact h.not_mem rfl hc

/-- A row of characters of a class that ends within the front of a text leaves
off at a character of the front. -/
theorem dropWhile_within {p : Char → Bool} {front : List Char} (h : ∃ c ∈ front, p c = false)
    (rest : List Char) : ∃ c more, (front ++ rest).dropWhile p = c :: more ∧ c ∈ front := by
  induction front with
  | nil =>
      obtain ⟨c, hc, -⟩ := h
      cases hc
  | cons d front ih =>
      rw [List.cons_append]
      cases hd : p d with
      | false => exact ⟨d, _, List.dropWhile_cons_of_neg (by simp [hd]), List.mem_cons_self⟩
      | true =>
          have hfront : ∃ c ∈ front, p c = false := by
            obtain ⟨c, hc, hpc⟩ := h
            rcases List.mem_cons.mp hc with rfl | hc
            · cases hd.symm.trans hpc
            · exact ⟨c, hc, hpc⟩
          obtain ⟨c, more, hmore, hc⟩ := ih hfront
          exact ⟨c, more, (List.dropWhile_cons_of_pos hd).trans hmore, List.mem_cons_of_mem d hc⟩

/-- Quoted text ends at its quote. -/
theorem splitAtQuote?_quoted {value : List Char} (hvalue : '"' ∉ value) :
    splitAtQuote? (value ++ ['"']) = some (value, []) := by
  induction value with
  | nil => rfl
  | cons c value ih =>
      rw [List.mem_cons, not_or] at hvalue
      rw [List.cons_append, splitAtQuote?, if_neg (Ne.symm hvalue.1), ih hvalue.2]
      rfl

/-- No operator goes on into a text that begins with a character that operators
do not hold. -/
theorem operator?_written {alphabet : List String} {op : String} {c : Char}
    (hlongest : IsLongestFirst alphabet) (hmem : op ∈ alphabet)
    (hfree : ∀ token ∈ alphabet, c ∉ token.toList) (rest : List Char) :
    operator? alphabet (op.toList ++ c :: rest) = some (op, c :: rest) := by
  refine (operator?_eq_longest hlongest).mpr ⟨hmem, rfl, fun token htoken hprefix => ?_⟩
  have hwithin : token.toList.isPrefixOf (op.toList ++ c :: rest) =
      token.toList.isPrefixOf op.toList := Ends.isPrefixOf_append (.blank _) (hfree token htoken)
  rw [List.isPrefixOf_iff_prefix.mpr hprefix] at hwithin
  obtain ⟨more, hmore⟩ := List.isPrefixOf_iff_prefix.mp hwithin.symm
  rw [← Text.byteLength_toList, ← Text.byteLength_toList, ← hmore, Text.byteLength_append]
  exact Nat.le_add_right _ _

section Written

variable {alphabet : List String} {name value : List Char} {op : String} {position : Nat}
  (hname : IsName name) (hop : IsOperatorToken op)

include hop

/-- Operators hold no letters, so that a row of letters ends in front of one at
the latest. -/
theorem exists_not_isAlpha : ∃ c ∈ name ++ op.toList, c.isAlpha = false := by
  obtain ⟨c, more, hmore⟩ := List.exists_cons_of_ne_nil hop.nonempty
  have hc : c ∈ op.toList := hmore ▸ List.mem_cons_self
  refine ⟨c, List.mem_append_right _ hc, ?_⟩
  by_contra halpha
  have hletter := Text.isLetter_of_isAlpha (eq_true_of_ne_false halpha)
  have hfree := hop.unreserved c hc
  simp [isReserved, Text.isLetterOrNumeral, hletter] at hfree

/-- Of the characters that names go on with, operators hold the underscore and
the point alone. -/
theorem stops_written (hbegins : ¬ BeginsLikeName op) (rest : List Char) :
    Stops isNameChar (op.toList ++ rest) := by
  obtain ⟨c, more, hmore⟩ := List.exists_cons_of_ne_nil hop.nonempty
  have hfree := hop.unreserved c (hmore ▸ List.mem_cons_self)
  rw [BeginsLikeName, hmore, List.head?_cons, Option.some_inj, Option.some_inj, not_or] at hbegins
  rw [hmore]
  refine stops_cons ?_ _
  simp only [isReserved, Bool.or_eq_false_iff] at hfree
  simp [isNameChar, hfree.1.2, hbegins]

include hname

/-- So name and operator reach up to the quote in one piece. -/
theorem isUnbroken_written : IsUnbroken (name ++ op.toList) := by
  intro c hc
  rcases List.mem_append.mp hc with hc | hc
  · exact hname.isUnbroken c hc
  · exact isUnbroken_of_isOperatorToken hop c hc

/-- A name in front of an operator is no keyword. -/
theorem combinator?_written (rest : List Char) :
    combinator? (name ++ op.toList ++ rest) = none := by
  have hdash : ∀ tail, name ++ op.toList ++ rest ≠ '-' :: tail := by
    obtain ⟨first, tail, rfl, hfirst, -⟩ := hname
    intro tail' heq
    obtain rfl := (List.cons.inj heq).1
    exact absurd hfirst (by decide +kernel)
  obtain ⟨c, more, hmore, hc⟩ := dropWhile_within (exists_not_isAlpha hop) rest
  obtain ⟨hblank, hopen, hquote, hbrace⟩ := isUnbroken_written hname hop c hc
  have hends : endsKeyword (c :: more) = false := by
    simp [endsKeyword, hblank, hopen, hquote, hbrace]
  rw [combinator?_of_no_dash hdash, hmore, hends]
  cases keyword? ((name ++ op.toList ++ rest).takeWhile Char.isAlpha) with
  | none => rfl
  | some kind => rfl

/-- A name in front of an operator begins no block. -/
theorem block?_written (hbegins : ¬ BeginsLikeName op) (rest : List Char) :
    block? position (name ++ op.toList ++ rest) = .ok none := by
  have hstop : ∃ c ∈ name ++ op.toList, isAggregatorChar c = false := by
    obtain ⟨c, more, hmore⟩ := List.exists_cons_of_ne_nil hop.nonempty
    have hnamed : isNameChar c = false := stops_written hop hbegins [] c (by rw [hmore]; rfl)
    rw [isNameChar, Bool.or_eq_false_iff] at hnamed
    exact ⟨c, List.mem_append_right _ (hmore ▸ List.mem_cons_self), hnamed.1⟩
  obtain ⟨c, more, hmore, hc⟩ := dropWhile_within hstop rest
  have hbrace : c ≠ '\x7b' := (isUnbroken_written hname hop c hc).2.2.2
  rw [block?]
  dsimp only
  rw [hmore, if_neg (by simpa using hbrace)]
  rfl

/-- **Behind a name and an operator that does not begin like a name stands the
value.** -/
theorem filter?_valued {rest : List Char} (hbegins : ¬ BeginsLikeName op)
    (hoperator : operator? alphabet (op.toList ++ rest) = some (op, rest)) :
    filter? alphabet position (name ++ op.toList ++ rest) =
      (filterValue (position + byteLength (name ++ op.toList)) rest).map fun found =>
        some (filter { name := String.ofList name, operator := op, value := found.1.text,
                       quoted := found.1.quoted } found.1.block, found.2) := by
  have hplace : byteLength (name ++ op.toList ++ rest) - byteLength rest =
      byteLength (name ++ op.toList) := by
    rw [Text.byteLength_append, Nat.add_sub_cancel]
  obtain ⟨first, tail, rfl, hfirst, htail⟩ := hname
  have hstops := stops_written hop hbegins rest
  have hparameter : parameter? (op.toList ++ rest) = some (none, op.toList ++ rest) := by
    unfold parameter?
    split
    · next heq =>
        obtain ⟨c, more, hmore⟩ := List.exists_cons_of_ne_nil hop.nonempty
        rw [hmore] at heq
        have hopen := (isUnbroken_of_isOperatorToken hop c (hmore ▸ List.mem_cons_self)).2.1
        exact absurd (List.cons.inj heq).1 hopen
    · rfl
  rw [← hplace, List.append_assoc, List.cons_append, filter?, if_neg (by simp [hfirst])]
  dsimp only
  rw [hstops.dropWhile_append htail, hstops.takeWhile_append htail, hparameter]
  dsimp only
  rw [hoperator]
  dsimp only
  cases filterValue _ rest with
  | error e => rfl
  | ok found => rfl

/-- **A name, an operator that does not begin like a name, and a quoted value
are a filter.** -/
theorem filter?_written (hlongest : IsLongestFirst alphabet)
    (halphabet : ∀ op ∈ alphabet, IsOperatorToken op) (hmem : op ∈ alphabet)
    (hbegins : ¬ BeginsLikeName op) (hvalue : '"' ∉ value) :
    filter? alphabet position (name ++ op.toList ++ '"' :: (value ++ ['"'])) =
      .ok (some (filter { name := String.ofList name, operator := op,
                          value := String.ofList value, quoted := true } none, [])) := by
  have hfree : ∀ token ∈ alphabet, '"' ∉ token.toList := fun token htoken =>
    (halphabet token htoken).not_mem rfl
  have hoperator := operator?_written hlongest hmem hfree (value ++ ['"'])
  rw [filter?_valued hname hop hbegins hoperator, filterValue, splitAtQuote?_quoted hvalue]
  rfl

/-- The whole text is one lexeme. -/
theorem scanFrom_written (hlongest : IsLongestFirst alphabet)
    (halphabet : ∀ op ∈ alphabet, IsOperatorToken op) (hmem : op ∈ alphabet)
    (hbegins : ¬ BeginsLikeName op) (hvalue : '"' ∉ value) (fuel : Nat) :
    scanFrom alphabet (fuel + 1) 0 (name ++ op.toList ++ '"' :: (value ++ ['"'])) =
      .ok [filter { name := String.ofList name, operator := op,
                    value := String.ofList value, quoted := true } none
            (Token.ofChars 0 (name ++ op.toList ++ '"' :: (value ++ ['"'])))] := by
  have hblock : block? 0 (name ++ op.toList ++ '"' :: (value ++ ['"'])) = .ok none :=
    block?_written hname hop hbegins _
  have hfinds := Finds.filter (combinator?_written hname hop _) hblock
    (filter?_written hname hop hlongest halphabet hmem hbegins hvalue)
  have htoken := tokenBefore_append 0 (name ++ op.toList ++ '"' :: (value ++ ['"'])) []
  rw [List.append_nil] at htoken
  rw [htoken] at hfinds
  obtain ⟨first, more, hmore, hfirst⟩ := hname.exists_cons (op.toList ++ '"' :: (value ++ ['"']))
  rw [List.append_assoc] at hfinds ⊢
  rw [hmore] at hfinds ⊢
  rw [scanFrom_finds (isNotDelimiter hfirst) hfinds, scanFrom_nil]
  rfl

end Written

/-- Without a parameter, the head of a filter is its name. -/
theorem IsFilter.rest_eq {alphabet : List String} {f : FilterExpression} {value : FilterValue}
    {cs head rest more behind : List Char} (h : IsFilter alphabet cs behind f value head rest)
    (hparam : f.param = none) (hcs : cs = f.name.toList ++ more) : rest = more := by
  have hhead : head = f.name.toList := by
    cases h.head with
    | name => rfl
    | parameter hsome => exact absurd (hparam.symm.trans hsome) (by simp)
  have htext := h.text
  rw [hhead, hcs] at htext
  exact (List.append_cancel_left htext).symm

/-- Behind a name without a parameter stands no character that the name could go
on with. -/
theorem not_beginsLikeName {alphabet : List String} {position : Nat} {cs behind : List Char}
    {op : String} {block : Option NestedBlock} {place : Token} (f : FilterExpression)
    (hparam : f.param = none)
    (h : Finds alphabet position (f.name.toList ++ (op.toList ++ cs)) (.filter f block place)
      behind) :
    ¬ BeginsLikeName op := by
  obtain ⟨value, head, rest, -, hfilter⟩ := h.isFilter rfl
  obtain rfl := hfilter.rest_eq hparam rfl
  have hended : ∀ c, op.toList.head? = some c → isNameChar c = false := by
    intro c hc
    obtain ⟨more, hmore⟩ := List.head?_eq_some_iff.mp hc
    exact (hfilter.ended hparam c (more ++ cs) (by rw [hmore]; rfl)).1
  rintro (hunderscore | hpoint)
  · exact absurd (hended _ hunderscore) (by decide +kernel)
  · exact absurd (hended _ hpoint) (by decide +kernel)

/-- A scan that gives one lexeme for a text that does not begin with a blank or
a parenthesis has found it at the front. -/
theorem finds_of_scan_single {alphabet : List String} {text : String} {first : Char}
    {more : List Char} {l : Lexeme} (htext : text.toList = first :: more)
    (hfirst : isBlank first = false ∧ first ≠ '(' ∧ first ≠ ')')
    (hscan : scan alphabet text = .ok [l]) :
    ∃ behind, Finds alphabet 0 text.toList l behind := by
  have hscans := scans_of_scan hscan
  obtain ⟨hblank, hopen, -⟩ := hfirst
  rw [htext] at hscans ⊢
  generalize hls : [l] = ls at hscans
  cases hscans with
  | blank hc => exact absurd (hc.symm.trans hblank) (by decide)
  | group => exact absurd rfl hopen
  | single _ hfinds =>
      obtain ⟨rfl, -⟩ := List.cons.inj hls
      exact ⟨_, hfinds⟩

end Lexeme

namespace Engine

open Lexeme

variable {α : Type}

/-- **An operator can be written exactly if it does not begin like a name goes
on.**  Whatever has been registered: a name, a registered operator and a quoted
value are scanned as one filter with this name, operator and value, unless the
operator begins with an underscore or a point. -/
theorem operators_can_be_written {engine : Engine α} (hengine : engine.Reachable)
    {name op value : String} (hop : op ∈ engine.operators.tokens) (hname : IsName name.toList)
    (hvalue : '"' ∉ value.toList) :
    (∃ place, scan engine.alphabet (quotedFilter name op value) =
        .ok [.filter { name, operator := op, value, quoted := true } none place]) ↔
      ¬ BeginsLikeName op := by
  have hmem : op ∈ engine.alphabet := by
    rw [engine.alphabet_eq]
    exact (OperatorTable.alphabet_perm _).mem_iff.mpr hop
  have hlongest : IsLongestFirst engine.alphabet := by
    rw [engine.alphabet_eq]
    exact alphabet_isLongestFirst _
  have htoken : IsOperatorToken op := hengine.isOperatorToken hmem
  constructor
  · rintro ⟨place, hscan⟩
    obtain ⟨first, more, hmore, hfirst⟩ :=
      hname.exists_cons (op.toList ++ '"' :: (value.toList ++ ['"']))
    rw [← List.append_assoc, ← toList_quotedFilter] at hmore
    obtain ⟨behind, hfinds⟩ := finds_of_scan_single hmore (isNotDelimiter hfirst) hscan
    rw [toList_quotedFilter, List.append_assoc] at hfinds
    exact not_beginsLikeName { name, operator := op, value, quoted := true } rfl hfinds
  · intro hbegins
    refine ⟨Token.ofChars 0 (name.toList ++ op.toList ++ '"' :: (value.toList ++ ['"'])), ?_⟩
    have hwritten := scanFrom_written hname htoken hlongest
      (fun _ => hengine.isOperatorToken) hmem hbegins hvalue
    rw [scan, toList_quotedFilter, hwritten, String.ofList_toList, String.ofList_toList]

/-- With the operators `-:` and `-` beside the built-in ones `-` can be written,
also behind a name that is a keyword elsewhere. -/
theorem written_minus :
    ∃ place, scan (({} : Engine Nat).addOperators ["-", "-:"]).alphabet
        (quotedFilter "not" "-" "and (b") =
      .ok [.filter { name := "not", operator := "-", value := "and (b", quoted := true } none
        place] := by
  have hengine := (Reachable.new : ({} : Engine Nat).Reachable).addOperators ["-", "-:"]
  have hop : "-" ∈ (({} : Engine Nat).addOperators ["-", "-:"]).operators.tokens :=
    (mem_tokens_addOperators _ _ _).mpr (.inr ⟨by decide, isOperatorToken_iff.mpr rfl⟩)
  have hname : IsName "not".toList := ⟨'n', ['o', 't'], rfl, rfl, List.all_eq_true.mp rfl⟩
  have hvalue : '"' ∉ "and (b".toList := by decide
  have hbegins : ¬ BeginsLikeName "-" := by
    rintro (hunderscore | hpoint)
    · exact absurd hunderscore (by decide)
    · exact absurd hpoint (by decide)
  exact (operators_can_be_written hengine hop hname hvalue).mpr hbegins

/-- The operator `_` is accepted, but it cannot be written: in `a_"v"` it is a
part of the name, and the text is a word and a phrase, which are not one
lexeme. -/
theorem accepted_operator_within_a_name :
    "_" ∈ (({} : Engine Nat).addOperators ["_"]).operators.tokens ∧ IsName "a".toList ∧
      scan (({} : Engine Nat).addOperators ["_"]).alphabet (quotedFilter "a" "_" "v") =
        .ok [.word { text := "a_" } ⟨"a_", 0, 2⟩,
          .word { text := "v", phrase := true } ⟨"\"v\"", 2, 3⟩] := by
  have hop : "_" ∈ (({} : Engine Nat).addOperators ["_"]).operators.tokens :=
    (mem_tokens_addOperators _ _ _).mpr (.inr ⟨by decide, isOperatorToken_iff.mpr rfl⟩)
  have halphabet : (({} : Engine Nat).addOperators ["_"]).alphabet =
      ["!=", "<=", ">=", ":", "<", "=", ">", "_"] := by decide +kernel
  refine ⟨hop, ⟨'a', [], rfl, rfl, List.all_eq_true.mp rfl⟩, ?_⟩
  rw [halphabet]
  rfl

end Engine

end FilterQuery
