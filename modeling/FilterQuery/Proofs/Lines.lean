import FilterQuery.Proofs.Shifting

/-!
# Lines

A line break ends whatever stands in front of it, except quoted text and what
delimiters enclose, and these must be closed for the text in front of it to be
scanned.  So that text gives the same lexemes whatever follows the line break,
and what follows gives the lexemes that it gives by itself.

One rule looks further than it takes: the parameter of a filter is searched for
its parenthesis.  If there is none, the text in front of the line break has a
parenthesis that nothing closes.
-/

namespace FilterQuery

open Text (byteLength isBlank)

namespace Lexeme

/-- The name of a filter is written with characters of words. -/
theorem isWordChar_of_isNameChar {c : Char} (h : isNameChar c = true) : isWordChar c = true := by
  rw [isWordChar, Bool.and_eq_true]
  constructor
  · by_contra hblank
    have hletter := Text.isLetterOrNumeral_of_isBlank (by simpa using hblank)
    have hmark : c = '_' ∨ c = '.' := by simpa [isNameChar, hletter] using h
    rcases hmark with rfl | rfl
    · exact hblank (by decide)
    · exact hblank (by decide)
  · by_contra hdelimiter
    rw [Bool.not_eq_true', Bool.not_eq_false] at hdelimiter
    have hnone : ∀ d ∈ ['(', ')', '"', '\x7b', '\x7d'], (!isNameChar d) = true :=
      List.all_eq_true.mp rfl
    have hname := hnone c (List.contains_iff_mem.mp hdelimiter)
    rw [h] at hname
    cases hname

end Lexeme

/-- What follows does not matter once everything open is closed. -/
theorem Closes.append {depth : Depth} {quoted : Bool} {cs taken behind : List Char}
    (h : Closes depth quoted cs taken behind) (rest : List Char) :
    Closes depth quoted (cs ++ rest) taken (behind ++ rest) := by
  induction h with
  | quoted _ ih => exact .quoted ih
  | quote hmatch _ ih => exact .quote (List.mem_append_left _ hmatch) ih
  | next hc hopen _ ih => exact .next hc hopen ih
  | last hc hclosed behind => exact .last hc hclosed (behind ++ rest)

/-- What a delimiter encloses does not depend on what comes behind it. -/
theorem delimited?_append {position : Nat} {cs inside behind : List Char}
    (h : delimited? position cs = .ok (some (inside, behind))) (rest : List Char) :
    delimited? position (cs ++ rest) = .ok (some (inside, behind ++ rest)) := by
  obtain ⟨taken, htaken, hinside⟩ := delimited?_eq_found.mp h
  exact delimited?_eq_found.mpr ⟨taken, htaken.append rest, hinside⟩

/-- What a quote ends does not depend on what comes behind it. -/
theorem splitAtQuote?_append {cs text behind : List Char}
    (h : splitAtQuote? cs = some (text, behind)) (rest : List Char) :
    splitAtQuote? (cs ++ rest) = some (text, behind ++ rest) := by
  induction cs generalizing text with
  | nil => cases h
  | cons c cs ih =>
      rw [splitAtQuote?] at h
      rw [List.cons_append, splitAtQuote?]
      split
      · next hquote =>
          rw [if_pos hquote] at h
          cases h
          rfl
      · next hquote =>
          rw [if_neg hquote] at h
          obtain ⟨found, hfound, heq⟩ := Option.map_eq_some_iff.mp h
          cases heq
          rw [ih hfound]
          rfl

namespace Lexeme

variable {alphabet : List String} {position : Nat} {cs behind rest : List Char} {b : Char}

/-- A token does not depend on what comes behind it. -/
theorem tokenBefore_append_right (position : Nat) (cs behind rest : List Char) :
    tokenBefore position (cs ++ rest) (behind ++ rest) = tokenBefore position cs behind := by
  have hlength : (cs ++ rest).length - (behind ++ rest).length = cs.length - behind.length := by
    rw [List.length_append, List.length_append]
    omega
  rw [tokenBefore, tokenBefore, hlength, List.take_append_of_le_length (Nat.sub_le _ _)]

/-- Dropping stops at the same place, whatever follows. -/
theorem dropWhile_append_of_cons {p : Char → Bool} {d : Char} {ds : List Char}
    (h : cs.dropWhile p = d :: ds) (rest : List Char) :
    (cs ++ rest).dropWhile p = d :: (ds ++ rest) ∧ (cs ++ rest).takeWhile p = cs.takeWhile p := by
  have hlength : (cs.takeWhile p).length ≠ cs.length := by
    have hparts := congrArg List.length (List.takeWhile_append_dropWhile (p := p) (l := cs))
    rw [List.length_append, h, List.length_cons] at hparts
    omega
  rw [List.dropWhile_append, List.takeWhile_append, h, if_neg hlength]
  exact ⟨rfl, rfl⟩

/-- If no parameter is found, then none at all, or its parenthesis is still to
come. -/
theorem parameter?_eq_none (h : parameter? cs = none) :
    ∃ inside, cs = '(' :: inside ∧
      ((∀ d ∈ inside, d ≠ '(' ∧ d ≠ ')') ∨ ∀ rest, parameter? (cs ++ rest) = none) := by
  unfold parameter? at h
  split at h
  · next inside =>
      refine ⟨inside, rfl, ?_⟩
      dsimp only at h
      cases hdrop : inside.dropWhile fun c => !(c = '(' || c = ')') with
      | nil =>
          left
          intro d hd
          have hnone := List.dropWhile_eq_nil_iff.mp hdrop d hd
          simpa using hnone
      | cons d ds =>
          right
          intro rest
          have hclosing : d ≠ ')' := by
            rintro rfl
            rw [hdrop] at h
            cases h
          rw [List.cons_append, parameter?]
          dsimp only
          rw [(dropWhile_append_of_cons hdrop rest).1]
          split
          · next heq => exact absurd (List.cons.inj heq).1 hclosing
          · rfl
  · cases h

section Blank

/-- Blanks are no characters of an aggregator's name. -/
theorem isAggregatorChar_of_isBlank (hb : isBlank b = true) : isAggregatorChar b = false := by
  have hmark : '_' ≠ b := ne_of_isBlank hb (by decide)
  simp [isAggregatorChar, Text.isLetterOrNumeral_of_isBlank hb, hmark.symm]

/-- Blanks are no characters of a name. -/
theorem isNameChar_of_isBlank (hb : isBlank b = true) : isNameChar b = false := by
  have hmark : '_' ≠ b := ne_of_isBlank hb (by decide)
  have hdot : '.' ≠ b := ne_of_isBlank hb (by decide)
  simp [isNameChar, Text.isLetterOrNumeral_of_isBlank hb, hmark.symm, hdot.symm]

variable (hrest : Ends b rest) (hb : isBlank b = true)
include hrest hb

/-- A nested query in front of a blank is found whatever comes behind. -/
theorem Ends.block?_followed {found : Scanned NestedBlock} (h : block? position cs = .ok found) :
    block? position (cs ++ rest) = .ok (followed rest found) := by
  have hname := isAggregatorChar_of_isBlank hb
  cases found with
  | none =>
      have hhead : (cs.dropWhile isAggregatorChar).head? ≠ some '\x7b' := by
        intro hbrace
        rw [block?] at h
        dsimp only at h
        rw [if_pos hbrace] at h
        obtain ⟨delimited, hdelimited, h⟩ := bind_eq_ok.mp h
        cases delimited with
        | none => cases h
        | some delimited => cases h
      rw [block?]
      dsimp only
      rw [hrest.dropWhile_append hname, if_neg (hrest.head?_append_ne hb (by decide) hhead)]
      rfl
  | some found =>
      obtain ⟨query, hbrace, hdelimited, hblock⟩ := block?_eq_found.mp h
      refine block?_eq_found.mpr ⟨query, ?_, ?_, ?_⟩
      · rw [hrest.dropWhile_append hname, List.head?_append, hbrace]
        rfl
      · rw [hrest.dropWhile_append hname, hrest.takeWhile_append hname]
        exact delimited?_append hdelimited rest
      · rw [hrest.takeWhile_append hname, hblock, tokenBefore_append_right]
        rfl

/-- A value in front of a blank is found whatever comes behind. -/
theorem Ends.filterValue_followed {value : FilterValue}
    (h : filterValue position cs = .ok (value, behind)) :
    filterValue position (cs ++ rest) = .ok (value, behind ++ rest) := by
  unfold filterValue at h
  split at h
  · rw [List.cons_append, filterValue]
    split at h
    · next hquote =>
        cases h
        rw [splitAtQuote?_append hquote]
        rfl
    · cases h
  · next hplain =>
      have hhead : cs.head? ≠ some '"' := by
        intro h
        exact hplain cs.tail (List.eq_cons_of_mem_head? h)
      unfold filterValue
      split
      · next heq => exact absurd (by rw [heq]; rfl) (hrest.head?_append_ne hb (by decide) hhead)
      · obtain ⟨found, hfound, h⟩ := bind_eq_ok.mp h
        rw [hrest.block?_followed hb hfound]
        cases found with
        | none =>
            cases h
            have hvalue : isValueChar b = false := by simp [isValueChar, hb]
            rw [hrest.dropWhile_append hvalue]
            simp only [followed, Option.map_none, bind, Except.bind,
              hrest.takeWhile_append hvalue]
            rfl
        | some found =>
            cases h
            rfl

/-- A parameter in front of a blank is found whatever comes behind. -/
theorem Ends.parameter?_found {param : Option String} (h : parameter? cs = some (param, behind)) :
    parameter? (cs ++ rest) = some (param, behind ++ rest) := by
  unfold parameter? at h
  split at h
  · next inside =>
      dsimp only at h
      split at h
      · next hclosing =>
          cases h
          obtain ⟨hdrop, htake⟩ := dropWhile_append_of_cons hclosing rest
          rw [List.cons_append, parameter?]
          dsimp only
          rw [hdrop, htake]
          rfl
      · cases h
  · next hplain =>
      cases h
      have hhead : cs.head? ≠ some '(' := by
        intro h
        exact hplain cs.tail (List.eq_cons_of_mem_head? h)
      unfold parameter?
      split
      · next heq => exact absurd (by rw [heq]; rfl) (hrest.head?_append_ne hb (by decide) hhead)
      · rfl

/-- A toggle in front of a blank is found whatever comes behind. -/
theorem Ends.toggle?_followed (cs : List Char) :
    toggle? (cs ++ rest) = followed rest (toggle? cs) := by
  by_cases hplus : ∃ tail, cs = '+' :: tail
  · obtain ⟨tail, rfl⟩ := hplus
    have hdash : '-' ≠ b := ne_of_isBlank hb (by decide)
    have hname : (isNameChar b || b = '-') = false := by
      simp [isNameChar_of_isBlank hb, hdash.symm]
    rw [List.cons_append, toggle?, toggle?]
    rw [hrest.takeWhile_append hname, hrest.dropWhile_append hname]
    split
    · rfl
    · rfl
  · have hhead : cs.head? ≠ some '+' := by
      intro h
      exact hplus ⟨cs.tail, List.eq_cons_of_mem_head? h⟩
    have hnone : ∀ {cs : List Char}, cs.head? ≠ some '+' → toggle? cs = none := by
      intro cs h
      unfold toggle?
      split
      · exact absurd rfl h
      · rfl
    rw [hnone hhead, hnone (hrest.head?_append_ne hb (by decide) hhead)]
    rfl

/-- A word in front of a blank is found whatever comes behind. -/
theorem Ends.word?_followed {kind : Token → Lexeme}
    (h : word? position cs = .ok (some (kind, behind))) :
    word? position (cs ++ rest) = .ok (some (kind, behind ++ rest)) := by
  unfold word? at h ⊢
  split at h
  next exact body hstart =>
  split
  next exact' body' hstart' =>
  -- The mark of an exact word is in front of either text, or of none.
  have hsame : exact' = exact ∧ body' = body ++ rest := by
    split at hstart
    · cases hstart
      cases hstart'
      exact ⟨rfl, rfl⟩
    · next hplain =>
        cases hstart
        have hhead : cs.head? ≠ some '!' := by
          intro h
          exact hplain cs.tail (List.eq_cons_of_mem_head? h)
        split at hstart'
        · next heq => exact absurd (by rw [heq]; rfl) (hrest.head?_append_ne hb (by decide) hhead)
        · cases hstart'
          exact ⟨rfl, rfl⟩
  obtain ⟨rfl, rfl⟩ := hsame
  split at h
  · rw [List.cons_append]
    split at h
    · next hquote =>
        cases h
        simp only [splitAtQuote?_append hquote]
        rfl
    · cases h
  · next hplain =>
      have hhead : body.head? ≠ some '"' := by
        intro h
        exact hplain body.tail (List.eq_cons_of_mem_head? h)
      have hword : isWordChar b = false := by simp [isWordChar, hb]
      split
      · next heq => exact absurd (by rw [heq]; rfl) (hrest.head?_append_ne hb (by decide) hhead)
      · dsimp only at h ⊢
        rw [hrest.takeWhile_append hword, hrest.dropWhile_append hword]
        split at h
        · next hnonempty =>
            cases h
            rw [if_pos hnonempty]
            rfl
        · next hempty =>
            rw [if_neg hempty]
            split at h
            · next hexact =>
                cases h
                rw [if_pos hexact]
                rfl
            · cases h

variable (halphabet : ∀ op ∈ alphabet, b ∉ op.toList)
include halphabet

/-- A filter in front of a blank is found whatever comes behind. -/
theorem Ends.filter?_found {kind : Token → Lexeme}
    (h : filter? alphabet position cs = .ok (some (kind, behind))) :
    filter? alphabet position (cs ++ rest) = .ok (some (kind, behind ++ rest)) := by
  have hname := isNameChar_of_isBlank hb
  cases cs with
  | nil => cases h
  | cons c tail =>
      rw [filter?] at h
      rw [List.cons_append, filter?]
      split at h
      · cases h
      · next hstart =>
          rw [if_neg hstart]
          dsimp only at h ⊢
          rw [hrest.dropWhile_append hname, hrest.takeWhile_append hname]
          split at h
          · cases h
          · next param body hparameter =>
              rw [hrest.parameter?_found hb hparameter]
              dsimp only
              rw [hrest.operator?_append halphabet]
              split at h
              · cases h
              · next operator value hoperator =>
                  rw [hoperator, Option.map_some]
                  obtain ⟨found, hvalue, h⟩ := bind_eq_ok.mp h
                  cases h
                  have hplace : byteLength (c :: (tail ++ rest)) - byteLength (value ++ rest) =
                      byteLength (c :: tail) - byteLength value := by
                    rw [← List.cons_append, Text.byteLength_append, Text.byteLength_append]
                    exact Nat.add_sub_add_right _ _ _
                  dsimp only
                  rw [hplace, hrest.filterValue_followed hb hvalue]
                  rfl

/-- Where no filter is found there is none, unless a parenthesis behind its name
is never closed. -/
theorem Ends.filter?_none {c : Char} {tail : List Char}
    (hsettled : isNameStart c = true → ∀ inside, tail.dropWhile isNameChar = '(' :: inside →
      ')' ∈ inside)
    (h : filter? alphabet position (c :: tail) = .ok none) :
    filter? alphabet position (c :: tail ++ rest) = .ok none := by
  have hname := isNameChar_of_isBlank hb
  rw [filter?] at h
  rw [List.cons_append, filter?]
  split at h
  · next hstart => rw [if_pos hstart]; rfl
  · next hstart =>
      rw [if_neg hstart]
      dsimp only at h ⊢
      rw [hrest.dropWhile_append hname]
      split at h
      · next hparameter =>
          obtain ⟨inside, hinside, hnone | hnone⟩ := parameter?_eq_none hparameter
          · have hclosing := hsettled (by simpa using hstart) inside hinside
            exact absurd rfl (hnone _ hclosing).2
          · rw [hnone]
            rfl
      · next param body hparameter =>
          rw [hrest.parameter?_found hb hparameter]
          dsimp only
          rw [hrest.operator?_append halphabet]
          split at h
          · next hoperator =>
              rw [hoperator]
              rfl
          · obtain ⟨found, hvalue, h⟩ := bind_eq_ok.mp h
            cases h

end Blank

/-- Only two slashes begin a comment. -/
theorem comment?_eq_none (h : ∀ tail, cs ≠ '/' :: '/' :: tail) : comment? cs = none := by
  unfold comment?
  split
  · exact absurd rfl (h _)
  · rfl

/-- A comment in front of a line end is found whatever comes behind. -/
theorem Ends.comment?_followed (hrest : Ends '\n' rest) (cs : List Char) :
    comment? (cs ++ rest) = followed rest (comment? cs) := by
  by_cases hslashes : ∃ tail, cs = '/' :: '/' :: tail
  · obtain ⟨tail, rfl⟩ := hslashes
    rw [List.cons_append, List.cons_append, comment?, comment?, hrest.takeWhile_append (by decide),
      hrest.dropWhile_append (by decide)]
    rfl
  · have hnone : ∀ tail, cs ≠ '/' :: '/' :: tail := fun tail h => hslashes ⟨tail, h⟩
    rw [comment?_eq_none hnone, comment?_eq_none]
    · rfl
    · intro tail h
      have hbreak : isBlank '\n' = true := by decide
      cases cs with
      | nil =>
          have hhead := hrest.head?_ne hbreak (d := '/') (by decide)
          rw [List.nil_append] at h
          exact hhead (by rw [h]; rfl)
      | cons c cs =>
          cases cs with
          | nil =>
              have hhead := hrest.head?_ne hbreak (d := '/') (by decide)
              exact hhead (by rw [List.singleton_append] at h; rw [(List.cons.inj h).2]; rfl)
          | cons d cs =>
              simp only [List.cons_append, List.cons.injEq] at h
              exact hnone cs (by rw [h.1, h.2.1])

/-- A word takes all of the name that it starts with. -/
theorem word?_behind {c : Char} {tail inside : List Char} {kind : Token → Lexeme}
    (hstart : isNameStart c = true) (hname : tail.dropWhile isNameChar = '(' :: inside)
    (h : word? position (c :: tail) = .ok (some (kind, behind))) : behind = '(' :: inside := by
  have hword : isWordChar c = true := by
    by_cases hhash : c = '#'
    · rw [hhash]
      rfl
    · refine isWordChar_of_isNameChar ?_
      simp only [isNameStart, hhash, decide_false, Bool.or_false, Bool.or_eq_true,
        decide_eq_true_eq] at hstart
      rcases hstart with hletter | hmark
      · simp [isNameChar, Text.isLetterOrNumeral, hletter]
      · simp [isNameChar, hmark]
  have hdrop : (c :: tail).dropWhile isWordChar = '(' :: inside := by
    have htail : tail = tail.takeWhile isNameChar ++ '(' :: inside := by
      rw [← hname, List.takeWhile_append_dropWhile]
    rw [List.dropWhile_cons_of_pos hword, htail, List.dropWhile_append_of_pos]
    · rfl
    · intro d hd
      exact isWordChar_of_isNameChar (List.mem_takeWhile_imp hd)
  have hmark : c ≠ '!' := by
    rintro rfl
    exact absurd hstart (by decide)
  have hquote : c ≠ '"' := by
    rintro rfl
    exact absurd hstart (by decide)
  unfold word? at h
  split at h
  next exact body hbody =>
  split at hbody
  · next heq => exact absurd (List.cons.inj heq).1 hmark
  · cases hbody
    split at h
    · next heq => exact absurd (List.cons.inj heq).1 hquote
    · dsimp only at h
      rw [List.takeWhile_cons_of_pos hword, hdrop] at h
      cases h
      rfl

/-- **A lexeme in front of a line break is found whatever follows**, if no
parenthesis that is never closed stands behind it. -/
theorem Finds.append {l : Lexeme} (h : Finds alphabet position cs l behind)
    (hrest : Ends '\n' rest) (halphabet : ∀ op ∈ alphabet, '\n' ∉ op.toList)
    (hclosed : ∀ inside, behind = '(' :: inside → ')' ∈ inside) :
    Finds alphabet position (cs ++ rest) l (behind ++ rest) := by
  have hb : isBlank '\n' = true := by decide
  have hcombinator? : ∀ {cs}, combinator? cs = none → combinator? (cs ++ rest) = none := by
    intro cs hnone
    rw [hrest.combinator?_followed hb, hnone]
    rfl
  have hblock? : ∀ {cs position}, block? position cs = .ok none →
      block? position (cs ++ rest) = .ok none := fun hnone => hrest.block?_followed hb hnone
  have htoggle? : ∀ {cs}, toggle? cs = none → toggle? (cs ++ rest) = none := by
    intro cs hnone
    rw [hrest.toggle?_followed hb, hnone]
    rfl
  -- No filter starts with the sign of a toggle or of a comment.
  have hfilter? : ∀ {c tail}, isNameStart c = false →
      filter? alphabet position (c :: tail ++ rest) = .ok none := by
    intro c tail hstart
    rw [List.cons_append, filter?, hstart]
    rfl
  cases h with
  | combinator h =>
      rw [← tokenBefore_append_right position cs behind rest]
      refine .combinator ?_
      rw [hrest.combinator?_followed hb, h]
      rfl
  | nested hcombinator h =>
      exact .nested (hcombinator? hcombinator) (hrest.block?_followed hb h)
  | filter hcombinator hblock h =>
      rw [← tokenBefore_append_right position cs behind rest]
      exact .filter (hcombinator? hcombinator) (hblock? hblock)
        (hrest.filter?_found hb halphabet h)
  | toggle hcombinator hblock hfilter h =>
      rw [← tokenBefore_append_right position cs behind rest]
      have hnone : filter? alphabet position (cs ++ rest) = .ok none := by
        unfold toggle? at h
        split at h
        · exact hfilter? rfl
        · cases h
      refine .toggle (hcombinator? hcombinator) (hblock? hblock) hnone ?_
      rw [hrest.toggle?_followed hb, h]
      rfl
  | comment hcombinator hblock hfilter htoggle h =>
      rw [← tokenBefore_append_right position cs behind rest]
      have hnone : filter? alphabet position (cs ++ rest) = .ok none := by
        unfold comment? at h
        split at h
        · exact hfilter? rfl
        · cases h
      refine .comment (hcombinator? hcombinator) (hblock? hblock) hnone (htoggle? htoggle) ?_
      rw [hrest.comment?_followed, h]
      rfl
  | word hcombinator hblock hfilter htoggle hcomment h =>
      rw [← tokenBefore_append_right position cs behind rest]
      have hnone : filter? alphabet position (cs ++ rest) = .ok none := by
        cases cs with
        | nil => exact absurd (word?_takes h).shorter (Nat.not_lt_zero _)
        | cons c tail =>
            refine hrest.filter?_none hb halphabet ?_ hfilter
            intro hstart inside hname
            exact hclosed inside (word?_behind hstart hname h)
      refine .word (hcombinator? hcombinator) (hblock? hblock) hnone (htoggle? htoggle) ?_
        (hrest.word?_followed hb h)
      rw [hrest.comment?_followed, hcomment]
      rfl

/-- In a text that is scanned, a parenthesis that opens is closed. -/
theorem Scans.mem_of_open {cs inside : List Char} {ls : List Lexeme}
    (h : Scans alphabet position cs ls) (hopen : cs = '(' :: inside) : ')' ∈ inside := by
  cases h with
  | nil => cases hopen
  | blank hc _ =>
      obtain rfl := (List.cons.inj hopen).1
      exact absurd hc (by decide)
  | group hdelimited hinner hrest =>
      obtain rfl := (List.cons.inj hopen).2
      simp
  | single hc _ _ => exact absurd (List.cons.inj hopen).1 hc.2.1

/-- **Text in front of a line break is scanned by itself**, and then what
follows it. -/
theorem Scans.scanFrom_append {ls : List Lexeme} (h : Scans alphabet position cs ls)
    (hrest : Ends '\n' rest) (halphabet : ∀ op ∈ alphabet, '\n' ∉ op.toList) {fuel fuel' : Nat}
    (hfuel : (cs ++ rest).length ≤ fuel) (hfuel' : rest.length ≤ fuel') :
    scanFrom alphabet fuel position (cs ++ rest) =
      (scanFrom alphabet fuel' (position + byteLength cs) rest).map (ls ++ ·) := by
  induction h generalizing fuel with
  | nil position =>
      have hmap : ∀ found : Except QueryError (List Lexeme), found.map ([] ++ ·) = found := by
        intro found
        cases found with
        | error e => rfl
        | ok more => rfl
      rw [hmap]
      exact scanFrom_congr hfuel hfuel'
  | @blank position c cs ls hc _ ih =>
      obtain ⟨fuel, rfl⟩ := Nat.exists_eq_add_one.mpr (Nat.lt_of_lt_of_le (Nat.succ_pos _) hfuel)
      rw [List.cons_append, scanFrom_blank hc, ih (Nat.le_of_succ_le_succ hfuel), byteLength,
        Nat.add_assoc]
  | @group position inside behind inner ls hdelimited hinner _ _ ihrest =>
      obtain ⟨fuel, rfl⟩ := Nat.exists_eq_add_one.mpr (Nat.lt_of_lt_of_le (Nat.succ_pos _) hfuel)
      have hdelimited' := delimited?_append hdelimited rest
      simp only [List.cons_append, List.length_cons, List.length_append] at hdelimited' hfuel ⊢
      rw [scanFrom_open hdelimited', hinner.scanFrom_eq (by omega), byteLength_group,
        ← Nat.add_assoc, ihrest (by rw [List.length_append]; omega)]
      cases scanFrom alphabet fuel'
          (position + byteLength ('(' :: inside ++ [')']) + byteLength behind) rest with
      | error e => rfl
      | ok more => exact congrArg Except.ok (List.append_assoc _ ls more).symm
  | @single position c cs behind l ls hc hfinds hrest' ih =>
      obtain ⟨fuel, rfl⟩ := Nat.exists_eq_add_one.mpr (Nat.lt_of_lt_of_le (Nat.succ_pos _) hfuel)
      obtain ⟨piece, hne, hpiece, htoken⟩ := hfinds.exists_piece
      have hshorter := hfinds.takes.shorter
      have hfinds' := hfinds.append hrest halphabet fun inside hopen => hrest'.mem_of_open hopen
      have hplace : position + byteLength (c :: cs) = l.token.stop + byteLength behind := by
        rw [hpiece, Text.byteLength_append, ← Nat.add_assoc, htoken]
        rfl
      simp only [List.cons_append, List.length_cons, List.length_append] at hfinds' hfuel hshorter ⊢
      rw [scanFrom_finds hc hfinds', hplace, ih (by rw [List.length_append]; omega)]
      cases scanFrom alphabet fuel' (l.token.stop + byteLength behind) rest with
      | error e => rfl
      | ok more => rfl

/-- What is scanned behind a line break is what is scanned alone, further on. -/
theorem scanFrom_break {fuel fuel' : Nat} (hfuel : cs.length + 1 ≤ fuel)
    (hfuel' : cs.length ≤ fuel') :
    Moved (position + 1) (fun ls ls' => ls' = shiftAll (position + 1) ls)
      (scanFrom alphabet fuel' 0 cs) (scanFrom alphabet fuel position ('\n' :: cs)) := by
  obtain ⟨fuel, rfl⟩ := Nat.exists_eq_add_one.mpr (Nat.lt_of_lt_of_le (Nat.succ_pos _) hfuel)
  have hbreak : isBlank '\n' = true := by decide
  have hsize : '\n'.utf8Size = 1 := rfl
  have hmoved := scanFrom_moved alphabet (position + 1) fuel 0 cs
  rw [Nat.zero_add] at hmoved
  rw [scanFrom_blank hbreak, hsize, scanFrom_congr hfuel' (Nat.le_of_succ_le_succ hfuel)]
  exact hmoved

variable {α : Type} {engine : Engine α}

/-- **Lines are scanned one by one.**  Whatever has been registered with an
engine, if a text is scanned, then in front of a line break and more text it
gives the same lexemes.  Behind them come the lexemes of that text, further on
by the length of what stands in front of it; or if there are none because of an
error, then this error is that of the whole. -/
theorem lines_are_scanned_one_by_one (hengine : engine.Reachable) {s : String} {ls : List Lexeme}
    (hs : scan engine.alphabet s = .ok ls) (t : String) :
    let n := byteLength s.toList + 1
    ((∃ ks, scan engine.alphabet (s ++ "\n" ++ t) = .ok ks) ↔
      ∃ ms, scan engine.alphabet t = .ok ms) ∧
    (∀ ms, scan engine.alphabet t = .ok ms →
      scan engine.alphabet (s ++ "\n" ++ t) = .ok (ls ++ shiftAll n ms)) ∧
    ∀ e, scan engine.alphabet t = .error e →
      scan engine.alphabet (s ++ "\n" ++ t) = .error (e.shift n) := by
  intro n
  have halphabet : ∀ op ∈ engine.alphabet, '\n' ∉ op.toList :=
    fun op hop => (hengine.isOperatorToken hop).not_mem (by decide)
  have htext : (s ++ "\n" ++ t).toList = s.toList ++ '\n' :: t.toList := by simp
  have hwhole : scan engine.alphabet (s ++ "\n" ++ t) =
      (scanFrom engine.alphabet (t.toList.length + 1) (byteLength s.toList) ('\n' :: t.toList)).map
        (ls ++ ·) := by
    rw [scan, htext]
    have happend := (scans_of_scan hs).scanFrom_append (.blank t.toList) halphabet
      (Nat.le_succ (s.toList ++ '\n' :: t.toList).length) (Nat.le_refl ('\n' :: t.toList).length)
    rw [Nat.zero_add] at happend
    exact happend
  have hmoved : Moved n (fun ms ms' => ms' = shiftAll n ms) (scan engine.alphabet t)
      (scanFrom engine.alphabet (t.toList.length + 1) (byteLength s.toList) ('\n' :: t.toList)) :=
    scanFrom_break (Nat.le_refl _) (Nat.le_succ _)
  rw [hwhole]
  generalize scan engine.alphabet t = alone at hmoved
  generalize scanFrom engine.alphabet (t.toList.length + 1) (byteLength s.toList)
    ('\n' :: t.toList) = behind at hmoved
  cases hmoved with
  | ok heq =>
      rw [heq]
      refine ⟨⟨fun _ => ⟨_, rfl⟩, fun _ => ⟨_, rfl⟩⟩, ?_, ?_⟩
      · intro ms hms
        cases hms
        rfl
      · intro e he
        cases he
  | error e =>
      refine ⟨⟨?_, ?_⟩, ?_, ?_⟩
      · rintro ⟨ks, hks⟩
        cases hks
      · rintro ⟨ms, hms⟩
        cases hms
      · intro ms hms
        cases hms
      · intro e' he
        cases he
        rfl

/-- The line `(a or b) // c`, with a filter on the next line, or with a
parenthesis there that nothing opens. -/
theorem scan_of_two_lines :
    ({} : Engine Nat).Reachable ∧ ∃ ls, scan ({} : Engine Nat).alphabet "(a or b) // c" = .ok ls ∧
      scan ({} : Engine Nat).alphabet ("(a or b) // c" ++ "\n" ++ "x:\x7by\x7d") =
        .ok (ls ++ [.filter { name := "x", operator := ":", value := "\x7by\x7d" }
          (some { aggregator := none, query := "y", token := ⟨"\x7by\x7d", 16, 3⟩ })
          ⟨"x:\x7by\x7d", 14, 5⟩]) ∧
      scan ({} : Engine Nat).alphabet ("(a or b) // c" ++ "\n" ++ "b)") =
        .error ⟨.unexpectedClosing, 15, 1⟩ := by
  have hengine : ({} : Engine Nat).Reachable := .new
  have hscan : ∃ ls, scan ({} : Engine Nat).alphabet "(a or b) // c" = .ok ls := ⟨_, rfl⟩
  obtain ⟨ls, hs⟩ := hscan
  have hfilter : scan ({} : Engine Nat).alphabet "x:\x7by\x7d" =
      .ok [.filter { name := "x", operator := ":", value := "\x7by\x7d" }
        (some { aggregator := none, query := "y", token := ⟨"\x7by\x7d", 2, 3⟩ })
        ⟨"x:\x7by\x7d", 0, 5⟩] := rfl
  have hclosing : scan ({} : Engine Nat).alphabet "b)" = .error ⟨.unexpectedClosing, 1, 1⟩ := rfl
  have hlength : byteLength "(a or b) // c".toList = 13 := by decide +kernel
  obtain ⟨-, hlexemes, -⟩ := lines_are_scanned_one_by_one hengine hs "x:\x7by\x7d"
  obtain ⟨-, -, herror⟩ := lines_are_scanned_one_by_one hengine hs "b)"
  rw [hlength] at hlexemes herror
  exact ⟨hengine, ls, hs, hlexemes _ hfilter, herror _ hclosing⟩

end Lexeme

end FilterQuery
