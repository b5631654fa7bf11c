import FilterQuery.Proofs.Nesting
import FilterQuery.Proofs.PairedText
import FilterQuery.Proofs.WrittenOperators

/-!
# Nested queries in braces

The brace that closes a nested query is the one at which as many braces have
closed as opened, where those in quotes do not count.  So any text can stand
between braces in which quotes pair up and the braces outside of them are
balanced.  Behind the name of an aggregator, or none, and behind a name and an
operator, such a text in braces is one lexeme, and what it says can be read off
it: the name, and the text without the blanks at its ends.  Only a keyword in
front of the braces is no name of an aggregator, unless an operator comes before
it.
-/

namespace FilterQuery

open Text (byteLength isBlank)

/-- The characters that stand outside of quotes; the first is inside if
`quoted`. -/
def outside : (quoted : Bool) → List Char → List Char
  | _, [] => []
  | quoted, c :: cs =>
    if c = '"' then outside (!quoted) cs
    else if quoted then outside quoted cs
    else c :: outside quoted cs

/-- Quotes pair up, and outside of them braces are balanced: nowhere have more
of them closed than opened, and at the end none is open. -/
structure PairsUp (cs : List Char) : Prop where
  quotes : Even (cs.count '"')
  opened : ∀ front, front <+: outside false cs → front.count '\x7d' ≤ front.count '\x7b'
  closed : (outside false cs).count '\x7d' = (outside false cs).count '\x7b'

/-- The same of the rest of a text, with some braces open, and a quote if
`quoted`. -/
@[mk_iff]
structure PairsUpBehind (braces : Nat) (quoted : Bool) (cs : List Char) : Prop where
  quotes : Even (cs.count '"' + quoted.toNat)
  opened : ∀ front, front <+: outside quoted cs →
    front.count '\x7d' ≤ front.count '\x7b' + braces
  closed : (outside quoted cs).count '\x7d' = (outside quoted cs).count '\x7b' + braces

namespace PairsUpBehind

variable {braces : Nat} {quoted : Bool} {c : Char} {cs : List Char}

/-- At the beginning nothing is open. -/
theorem nothing_open : PairsUpBehind 0 false cs ↔ PairsUp cs :=
  ⟨fun h => ⟨h.quotes, h.opened, h.closed⟩, fun h => ⟨h.quotes, h.opened, h.closed⟩⟩

/-- At the end everything has to be closed. -/
theorem nil_iff : PairsUpBehind braces quoted [] ↔ braces = 0 ∧ quoted = false := by
  constructor
  · rintro ⟨hquotes, -, hclosed⟩
    refine ⟨(Nat.zero_add braces).symm.trans hclosed.symm, ?_⟩
    cases quoted with
    | false => rfl
    | true => exact absurd hquotes (by decide)
  · rintro ⟨rfl, rfl⟩
    refine ⟨by decide, fun front hfront => ?_, rfl⟩
    rw [List.prefix_nil.mp hfront]
    exact Nat.le_refl _

/-- A quote begins or ends what is quoted. -/
theorem quote_iff :
    PairsUpBehind braces quoted ('"' :: cs) ↔ PairsUpBehind braces (!quoted) cs := by
  have houtside : outside quoted ('"' :: cs) = outside (!quoted) cs := if_pos rfl
  have hquotes : Even (('"' :: cs).count '"' + quoted.toNat) ↔
      Even (cs.count '"' + (!quoted).toNat) := by
    rw [List.count_cons_self]
    cases quoted with
    | false => rfl
    | true =>
        rw [Bool.toNat_true, Nat.add_assoc, Nat.even_add]
        simp
  rw [pairsUpBehind_iff, pairsUpBehind_iff, houtside, hquotes]

/-- What is quoted opens and closes nothing. -/
theorem quoted_iff (hc : c ≠ '"') :
    PairsUpBehind braces true (c :: cs) ↔ PairsUpBehind braces true cs := by
  have houtside : outside true (c :: cs) = outside true cs := by
    rw [outside, if_neg hc, if_pos rfl]
  rw [pairsUpBehind_iff, pairsUpBehind_iff, houtside, List.count_cons_of_ne hc]

/-- A character that is not quoted counts at once. -/
theorem cons_iff (hc : c ≠ '"') : PairsUpBehind braces false (c :: cs) ↔
    Even (cs.count '"') ∧
      (∀ front, front <+: outside false cs →
        (c :: front).count '\x7d' ≤ (c :: front).count '\x7b' + braces) ∧
      (c :: outside false cs).count '\x7d' = (c :: outside false cs).count '\x7b' + braces := by
  have houtside : outside false (c :: cs) = c :: outside false cs := by
    rw [outside, if_neg hc, if_neg Bool.false_ne_true]
  rw [pairsUpBehind_iff, houtside, List.count_cons_of_ne hc]
  refine and_congr_right fun _ => and_congr_left fun _ => ?_
  constructor
  · intro hopened front hfront
    exact hopened _ (List.prefix_cons_inj c |>.mpr hfront)
  · intro hopened front hfront
    rcases List.prefix_cons_iff.mp hfront with rfl | ⟨rest, rfl, hrest⟩
    · exact Nat.zero_le _
    · exact hopened rest hrest

/-- A brace that opens has to be closed as well. -/
theorem open_iff :
    PairsUpBehind braces false ('\x7b' :: cs) ↔ PairsUpBehind (braces + 1) false cs := by
  have hopen : ('\x7b' : Char) ≠ '\x7d' := by decide
  rw [cons_iff (by decide), pairsUpBehind_iff]
  simp only [List.count_cons_self, List.count_cons_of_ne hopen, Nat.add_assoc,
    Nat.add_comm 1 braces, Bool.toNat_false, Nat.add_zero]

/-- A brace that closes closes the last one open. -/
theorem close_iff :
    PairsUpBehind (braces + 1) false ('\x7d' :: cs) ↔ PairsUpBehind braces false cs := by
  have hclose : ('\x7d' : Char) ≠ '\x7b' := by decide
  rw [cons_iff (by decide), pairsUpBehind_iff]
  simp only [List.count_cons_self, List.count_cons_of_ne hclose, ← Nat.add_assoc,
    Nat.add_le_add_iff_right, Nat.add_right_cancel_iff, Bool.toNat_false, Nat.add_zero]

/-- A brace may not close if none is open. -/
theorem not_close : ¬ PairsUpBehind 0 false ('\x7d' :: cs) := by
  rintro ⟨-, hopened, -⟩
  have hcount := hopened ['\x7d'] (by simp [outside])
  exact absurd hcount (by decide)

/-- Other characters open and close nothing. -/
theorem plain_iff (hc : c ≠ '"' ∧ c ≠ '\x7b' ∧ c ≠ '\x7d') :
    PairsUpBehind braces false (c :: cs) ↔ PairsUpBehind braces false cs := by
  rw [cons_iff hc.1, pairsUpBehind_iff]
  simp only [List.count_cons_of_ne hc.2.1, List.count_cons_of_ne hc.2.2, Bool.toNat_false,
    Nat.add_zero]

end PairsUpBehind

open PairsUpBehind in
/-- The count of open delimiters ends where it would without the text exactly if
the text pairs up. -/
theorem within_iff_pairsUpBehind {braces : Nat} {quoted : Bool} {cs : List Char} :
    within ⟨0, braces + 1⟩ quoted cs = some ({ braces := 1 }, false) ↔
      PairsUpBehind braces quoted cs := by
  induction cs generalizing braces quoted with
  | nil => rw [nil_iff, within]; simp
  | cons c cs ih =>
      by_cases hquote : c = '"'
      · subst hquote
        rw [quote_iff, ← ih]
        cases quoted with
        | false => rw [within, if_pos rfl]; rfl
        | true => rw [within]; rfl
      cases quoted with
      | true => rw [within, decide_eq_true hquote, quoted_iff hquote, ih]
      | false =>
          rw [within, if_neg hquote]
          by_cases hopen : c = '\x7b'
          · subst hopen
            rw [Depth.step_openBrace, if_neg Depth.ne_closed_of_braces, ih, open_iff]
          by_cases hclose : c = '\x7d'
          · subst hclose
            cases braces with
            | zero =>
                refine iff_of_false ?_ not_close
                rw [show Depth.step ⟨0, 0 + 1⟩ '\x7d' = {} from rfl, if_pos rfl]
                exact Option.some_ne_none _ ∘ Eq.symm
            | succ braces =>
                rw [show Depth.step ⟨0, braces + 1 + 1⟩ '\x7d' = ⟨0, braces + 1⟩ from rfl,
                  if_neg Depth.ne_closed_of_braces, ih, close_iff]
          · rw [Depth.step_braced ⟨hopen, hclose⟩, if_neg Depth.ne_closed_of_braces, ih,
              plain_iff ⟨hquote, hopen, hclose⟩]

/-- Text is enclosed exactly if its quotes and braces pair up. -/
theorem isEnclosed_iff_pairsUp {cs : List Char} : IsEnclosed cs ↔ PairsUp cs :=
  within_iff_pairsUpBehind.trans PairsUpBehind.nothing_open

instance (cs : List Char) : Decidable (PairsUp cs) :=
  decidable_of_iff (within { braces := 1 } false cs = some ({ braces := 1 }, false))
    isEnclosed_iff_pairsUp

/-- **A brace delimits what pairs up in front of another one.** -/
theorem delimited?_iff_pairsUp {position : Nat} {cs inside behind : List Char} :
    delimited? position ('\x7b' :: cs) = .ok (some (inside, behind)) ↔
      cs = inside ++ '\x7d' :: behind ∧ PairsUp inside := by
  rw [← isEnclosed_iff_pairsUp]
  constructor
  · intro h
    exact ⟨(delimited?_brace_iff.mp h).1, isEnclosed_of_delimited h⟩
  · rintro ⟨rfl, hinside⟩
    exact hinside.delimited? position behind

namespace Lexeme

/-- A word that combines operands, in any case. -/
def IsKeyword (word : String) : Prop :=
  ∃ keyword ∈ ["and", "or", "not"], Text.eqIgnoreAsciiCase word keyword = true

instance (word : String) : Decidable (IsKeyword word) :=
  inferInstanceAs (Decidable (∃ keyword ∈ ["and", "or", "not"],
    Text.eqIgnoreAsciiCase word keyword = true))

/-- Keywords are made of letters. -/
theorem IsKeyword.isAlpha {word : String} (h : IsKeyword word) {c : Char} (hc : c ∈ word.toList) :
    c.isAlpha = true := by
  obtain ⟨keyword, hmem, hsame⟩ := h
  have hletters : ∀ keyword ∈ ["and", "or", "not"],
      (keyword.toList.map Char.toLower).all Char.isAlpha = true := by decide
  rw [Text.eqIgnoreAsciiCase, beq_iff_eq] at hsame
  rw [← Char.isAlpha_toLower_eq_isAlpha]
  exact List.all_eq_true.mp (hletters keyword hmem) _ (hsame ▸ List.mem_map_of_mem hc)

/-- Keywords are the three words in any case. -/
theorem isKeyword_iff {word : String} :
    IsKeyword word ↔ String.ofList (word.toList.map Char.toLower) ∈ ["and", "or", "not"] := by
  have hlower : ∀ keyword ∈ ["and", "or", "not"],
      keyword.toList.map Char.toLower = keyword.toList := by decide
  have hsame : ∀ keyword ∈ ["and", "or", "not"],
      Text.eqIgnoreAsciiCase word keyword = true ↔
        String.ofList (word.toList.map Char.toLower) = keyword := by
    intro keyword hmem
    rw [Text.eqIgnoreAsciiCase, beq_iff_eq, hlower keyword hmem, ← String.toList_inj,
      String.toList_ofList]
  constructor
  · rintro ⟨keyword, hmem, h⟩
    rwa [(hsame keyword hmem).mp h]
  · intro hmem
    exact ⟨_, hmem, (hsame _ hmem).mpr rfl⟩

/-- What is no keyword reads as none. -/
theorem keyword?_eq_none {word : String} : keyword? word.toList = none ↔ ¬ IsKeyword word := by
  rw [isKeyword_iff, keyword?]
  split_ifs <;> simp_all

/-- The name of an aggregator, or nothing, in front of a query in braces. -/
def blockText (aggregator body : String) : String := aggregator ++ Text.braced body

/-- The block of such a text. -/
def blockOf (position : Nat) (aggregator body : String) : NestedBlock where
  aggregator := if aggregator.isEmpty then none else some aggregator
  query := Text.trim body
  token := Token.ofChars position (blockText aggregator body).toList

/-- The text of a block is its aggregator in front of its query in braces. -/
theorem toList_blockText (aggregator body : String) :
    (blockText aggregator body).toList =
      aggregator.toList ++ '\x7b' :: (body.toList ++ ['\x7d']) := by
  simp [blockText, Text.braced]

/-- Names of aggregators are made of characters of names. -/
theorem isNameChar_of_isAggregatorChar {c : Char} (h : isAggregatorChar c = true) :
    isNameChar c = true := by
  rw [isAggregatorChar, Bool.or_eq_true] at h
  rw [isNameChar, Bool.or_eq_true, Bool.or_eq_true]
  exact .inl h

section Blocks

variable {aggregator body : String} {position : Nat} {behind : List Char}
  (haggregator : ∀ c ∈ aggregator.toList, isAggregatorChar c = true)
include haggregator

omit haggregator in
/-- Neither the brace nor a character of the name stands alone, delimits, or is
an operator's. -/
theorem opensBlock {c : Char} (hc : c = '\x7b' ∨ isAggregatorChar c = true) :
    (isBlank c = false ∧ c ≠ '(' ∧ c ≠ ')') ∧ c ≠ '"' ∧ c ≠ '-' ∧
      ∀ op ∈ OperatorTable.builtin.alphabet, c ∉ op.toList := by
  have hbuiltin : ∀ op ∈ OperatorTable.builtin.alphabet, c ∉ op.toList := by
    intro op hop
    have htoken := OperatorTable.builtin_isSound.isOperatorToken hop
    rcases hc with rfl | hc
    · exact htoken.not_mem rfl
    rw [isAggregatorChar, Bool.or_eq_true, decide_eq_true_eq] at hc
    rcases hc with hword | rfl
    · exact htoken.not_mem (by simp [Engine.isReserved, hword])
    · exact (by decide +kernel : ∀ op ∈ OperatorTable.builtin.alphabet, '_' ∉ op.toList) op hop
  have hblank : isBlank c = false := by
    rcases hc with rfl | hc
    · decide +kernel
    · exact (isUnbroken_of_isNameChar (isNameChar_of_isAggregatorChar hc)).1
  refine ⟨⟨hblank, ?_, ?_⟩, ?_, ?_, hbuiltin⟩
  all_goals
    rintro rfl
    exact absurd hc (by decide +kernel)

/-- The text begins with the brace or with a character of the name. -/
theorem exists_blockText_cons (body : String) :
    ∃ c more, (blockText aggregator body).toList = c :: more ∧
      (c = '\x7b' ∨ isAggregatorChar c = true) := by
  rw [toList_blockText]
  cases hchars : aggregator.toList with
  | nil => exact ⟨_, _, rfl, .inl rfl⟩
  | cons c more => exact ⟨c, _, rfl, .inr (haggregator c (hchars ▸ List.mem_cons_self))⟩

/-- A block ends at a brace in front of which quotes and braces pair up. -/
theorem block?_blockText {block : NestedBlock} :
    block? position (blockText aggregator body).toList = .ok (some (block, behind)) ↔
      ∃ inside, body.toList ++ ['\x7d'] = inside ++ '\x7d' :: behind ∧ PairsUp inside ∧
        block = {
          aggregator := if aggregator.isEmpty then none else some aggregator
          query := String.ofList (Text.trimChars inside)
          token := tokenBefore position (blockText aggregator body).toList behind } := by
  have hstops : Stops isAggregatorChar ('\x7b' :: (body.toList ++ ['\x7d'])) :=
    stops_cons (by decide +kernel) _
  have hempty : aggregator.toList.isEmpty = aggregator.isEmpty := by
    rw [Bool.eq_iff_iff, List.isEmpty_iff, String.isEmpty_iff, String.toList_eq_nil_iff]
  rw [block?_eq_found, toList_blockText, hstops.dropWhile_append haggregator,
    hstops.takeWhile_append haggregator, ← toList_blockText]
  simp only [delimited?_iff_pairsUp, List.head?_cons, true_and, and_assoc, String.ofList_toList,
    hempty]

/-- A query in which quotes and braces pair up is the whole block. -/
theorem block?_of_pairsUp (hbody : PairsUp body.toList) :
    block? position (blockText aggregator body).toList =
      .ok (some (blockOf position aggregator body, [])) := by
  refine (block?_blockText haggregator).mpr ⟨body.toList, rfl, hbody, ?_⟩
  simp [blockOf, tokenBefore, Text.trim]

/-- Only a body that pairs up is that of a block that reaches to the end of the
text. -/
theorem pairsUp_of_block? {block : NestedBlock}
    (h : block? position (blockText aggregator body).toList = .ok (some (block, behind)))
    (htoken : block.token.text = blockText aggregator body) : PairsUp body.toList := by
  obtain ⟨inside, hchars, hinside, rfl⟩ := (block?_blockText haggregator).mp h
  have htaken := congrArg (fun text => text.toList.length) htoken
  have hlength := congrArg List.length hchars
  simp only [Token.ofChars, tokenBefore, String.toList_ofList, toList_blockText,
    List.length_take, List.length_append, List.length_cons, List.length_nil] at htaken hlength
  obtain rfl := List.length_eq_zero_iff.mp (by omega : behind.length = 0)
  obtain ⟨rfl, -⟩ := List.append_inj' hchars rfl
  exact hinside

/-- A block is no combinator exactly if its aggregator is no keyword. -/
theorem combinator?_blockText :
    combinator? (blockText aggregator body).toList = none ↔ ¬ IsKeyword aggregator := by
  have hdash : ∀ tail, (blockText aggregator body).toList ≠ '-' :: tail := by
    intro tail heq
    obtain ⟨c, more, hhead, hc⟩ := exists_blockText_cons haggregator body
    exact (opensBlock hc).2.2.1 (List.cons.inj (hhead.symm.trans heq)).1
  rw [combinator?_of_no_dash hdash, toList_blockText]
  by_cases halpha : ∀ c ∈ aggregator.toList, c.isAlpha = true
  · -- The name is the keyword, and the brace ends it.
    have hstops : Stops Char.isAlpha ('\x7b' :: (body.toList ++ ['\x7d'])) :=
      stops_cons (by decide) _
    rw [hstops.dropWhile_append halpha, hstops.takeWhile_append halpha, ← keyword?_eq_none]
    cases keyword? aggregator.toList with
    | none => exact iff_of_true rfl rfl
    | some kind => exact iff_of_false nofun nofun
  · -- A name with other characters goes on behind its first letters.
    have hother : ∃ c ∈ aggregator.toList, c.isAlpha = false := by
      push Not at halpha
      simpa using halpha
    refine iff_of_true ?_ fun hkeyword => halpha fun c hc => hkeyword.isAlpha hc
    obtain ⟨c, more, hmore, hc⟩ := dropWhile_within hother ('\x7b' :: (body.toList ++ ['\x7d']))
    have hname := haggregator c hc
    have hunbroken := isUnbroken_of_isNameChar (isNameChar_of_isAggregatorChar hname)
    have hends : endsKeyword (c :: more) = false := by simp [endsKeyword, hunbroken]
    rw [hmore, hends]
    cases keyword? _ with
    | none => rfl
    | some kind => rfl

/-- **A block that pairs up is one lexeme**, unless its name is a keyword. -/
theorem scan_blockText {alphabet : List String} :
    scan alphabet (blockText aggregator body) = .ok [.nested (blockOf 0 aggregator body)] ↔
      PairsUp body.toList ∧ ¬ IsKeyword aggregator := by
  obtain ⟨first, more, htext, hfirst⟩ := exists_blockText_cons haggregator body
  have hplain := (opensBlock hfirst).1
  constructor
  · intro hscan
    obtain ⟨behind, hfinds⟩ := finds_of_scan_single htext hplain hscan
    obtain ⟨hcombinator, hblock⟩ := hfinds.isNested rfl
    exact ⟨pairsUp_of_block? haggregator hblock String.ofList_toList,
      (combinator?_blockText haggregator).mp hcombinator⟩
  · rintro ⟨hbody, hkeyword⟩
    have hfinds : Finds alphabet 0 (blockText aggregator body).toList
        (.nested (blockOf 0 aggregator body)) [] :=
      .nested ((combinator?_blockText haggregator).mpr hkeyword)
        (block?_of_pairsUp haggregator hbody)
    rw [htext] at hfinds
    rw [scan, htext, scanFrom_finds hplain hfinds, scanFrom_nil]
    rfl

section Filters

variable {name op : String} {alphabet : List String} (hname : IsName name.toList)
  (hop : IsOperatorToken op) (hbegins : ¬ BeginsLikeName op)
  (hoperator : operator? alphabet (op.toList ++ (blockText aggregator body).toList) =
    some (op, (blockText aggregator body).toList))

/-- The value of a filter may be a block. -/
theorem filterValue_of_pairsUp (hbody : PairsUp body.toList) :
    filterValue position (blockText aggregator body).toList =
      .ok ({ text := blockText aggregator body
             block := some (blockOf position aggregator body) }, []) := by
  obtain ⟨c, more, htext, hc⟩ := exists_blockText_cons haggregator body
  have hquote : (blockText aggregator body).toList.head? ≠ some '"' := by
    rw [htext, List.head?_cons, ne_eq, Option.some_inj]
    exact (opensBlock hc).2.1
  rw [filterValue_of_no_quote position hquote, block?_of_pairsUp haggregator hbody, blockOf,
    Token.ofChars, String.ofList_toList]
  rfl

include hname hop hbegins hoperator

/-- **Behind a name and an operator a block that pairs up is the value of a
filter.** -/
theorem scan_filterBlock :
    scan alphabet (name ++ op ++ blockText aggregator body) =
        .ok [.filter { name, operator := op, value := blockText aggregator body }
          (some (blockOf (name ++ op).utf8ByteSize aggregator body))
          (Token.ofChars 0 (name ++ op ++ blockText aggregator body).toList)] ↔
      PairsUp body.toList := by
  have hchars : (name ++ op ++ blockText aggregator body).toList =
      name.toList ++ op.toList ++ (blockText aggregator body).toList := by
    rw [String.toList_append, String.toList_append]
  obtain ⟨first, more, hcons, hfirst⟩ :=
    hname.exists_cons (op.toList ++ (blockText aggregator body).toList)
  have htext := hchars.trans ((List.append_assoc _ _ _).trans hcons)
  constructor
  · intro hscan
    obtain ⟨behind, hfinds⟩ := finds_of_scan_single htext (isNotDelimiter hfirst) hscan
    obtain ⟨value, head, rest, hblock, hfilter⟩ := hfinds.isFilter rfl
    obtain ⟨place, chars, hfound, hvalue⟩ := hfilter.operator
    rw [hfilter.rest_eq rfl (hchars.trans (List.append_assoc _ _ _)), hoperator] at hfound
    cases hfound
    exact pairsUp_of_block? haggregator (block?_of_filterValue hvalue hblock.symm)
      String.ofList_toList
  · intro hbody
    have hplace : 0 + byteLength (name.toList ++ op.toList) = (name ++ op).utf8ByteSize := by
      rw [Nat.zero_add, ← String.toList_append, Text.byteLength_toList]
    have hfilter : filter? alphabet 0 (name.toList ++ op.toList ++ _) = _ :=
      filter?_valued hname hop hbegins hoperator
    rw [filterValue_of_pairsUp haggregator hbody, hplace, ← hchars] at hfilter
    have hcombinator := combinator?_written hname hop (blockText aggregator body).toList
    have hnone : block? 0 (name.toList ++ op.toList ++ _) = .ok none :=
      block?_written hname hop hbegins (blockText aggregator body).toList
    rw [← hchars] at hcombinator hnone
    have hfinds := Finds.filter hcombinator hnone hfilter
    have htoken := tokenBefore_append 0 (name ++ op ++ blockText aggregator body).toList []
    rw [List.append_nil] at htoken
    rw [htoken, String.ofList_toList] at hfinds
    rw [scan]
    rw [htext] at hfinds ⊢
    rw [scanFrom_finds (isNotDelimiter hfirst) hfinds, scanFrom_nil]
    rfl

end Filters

end Blocks

/-- **Nested queries are scanned as they are written.**  The name of an
aggregator, or none, and a query in braces are one lexeme that covers them, with
this name and the query without the blanks at its ends, if the query pairs up
and the name is no keyword; and only then.  Behind the name of a filter and an
operator they are its value, also if the name of the aggregator is a keyword. -/
theorem nested_queries_are_scanned_as_written {aggregator body : String}
    (haggregator : ∀ c ∈ aggregator.toList, isAggregatorChar c = true) :
    (scan OperatorTable.builtin.alphabet (blockText aggregator body) =
        .ok [.nested (blockOf 0 aggregator body)] ↔
      PairsUp body.toList ∧ ¬ IsKeyword aggregator) ∧
      ∀ name op : String, IsName name.toList → op ∈ OperatorTable.builtin.alphabet →
        (scan OperatorTable.builtin.alphabet (name ++ op ++ blockText aggregator body) =
            .ok [.filter { name, operator := op, value := blockText aggregator body }
              (some (blockOf (name ++ op).utf8ByteSize aggregator body))
              (Token.ofChars 0 (name ++ op ++ blockText aggregator body).toList)] ↔
          PairsUp body.toList) := by
  refine ⟨scan_blockText haggregator, fun name op hname hmem => ?_⟩
  have hop := OperatorTable.builtin_isSound.isOperatorToken hmem
  have hbegins : ¬ BeginsLikeName op := by
    have hbuiltin : ∀ op ∈ OperatorTable.builtin.alphabet,
        op.toList.head? ≠ some '_' ∧ op.toList.head? ≠ some '.' := by decide +kernel
    exact not_or.mpr (hbuiltin op hmem)
  obtain ⟨c, more, htext, hc⟩ := exists_blockText_cons haggregator body
  refine scan_filterBlock haggregator hname hop hbegins ?_
  rw [htext]
  exact operator?_written (alphabet_isLongestFirst _) hmem (opensBlock hc).2.2.2 more

/-- A query of a nested one, a brace in quotes and a parenthesis that is not
closed. -/
theorem scanned_query_in_braces :
    scan OperatorTable.builtin.alphabet (blockText "max" " a (\x7bb\x7d \"\x7d\" ") =
        .ok [.nested (blockOf 0 "max" " a (\x7bb\x7d \"\x7d\" ")] ∧
      scan OperatorTable.builtin.alphabet ("n" ++ "<" ++ blockText "not" "\x7b\x7d") =
        .ok [.filter { name := "n", operator := "<", value := blockText "not" "\x7b\x7d" }
          (some (blockOf ("n" ++ "<").utf8ByteSize "not" "\x7b\x7d"))
          (Token.ofChars 0 ("n" ++ "<" ++ blockText "not" "\x7b\x7d").toList)] := by
  have hmax : ∀ c ∈ "max".toList, isAggregatorChar c = true := List.all_eq_true.mp rfl
  have hnot : ∀ c ∈ "not".toList, isAggregatorChar c = true := List.all_eq_true.mp rfl
  have hname : IsName "n".toList := ⟨'n', [], rfl, rfl, nofun⟩
  have hop : "<" ∈ OperatorTable.builtin.alphabet := by decide +kernel
  constructor
  · exact (nested_queries_are_scanned_as_written hmax).1.mpr ⟨by decide, by decide⟩
  · exact ((nested_queries_are_scanned_as_written hnot).2 "n" "<" hname hop).mpr (by decide)

end Lexeme

end FilterQuery
