import Mathlib
import FilterQuery.Proofs.Delimiters
import FilterQuery.Proofs.Registration

/-!
# Scanning

One step of the scanner takes a blank, a group or a single lexeme off the text.
A filter that is plain text ends at the first blank: no rule looks behind it, as
no operator holds a blank, so what comes out does not depend on what follows.
-/

namespace FilterQuery

namespace Text

/-- The bytes of the characters are those of the text. -/
theorem byteLength_toList (s : String) : byteLength s.toList = s.utf8ByteSize := by
  have hlength : ∀ cs : List Char, byteLength cs = String.utf8Len cs := by
    intro cs
    induction cs with
    | nil => rfl
    | cons c cs ih => rw [byteLength, ih, String.utf8Len_cons, Nat.add_comm]
  rw [hlength, ← String.utf8ByteSize_ofList, String.ofList_toList]

/-- ASCII letters are letters. -/
theorem isLetter_of_isAlpha {c : Char} (h : c.isAlpha = true) : isLetter c = true := by
  have hascii : c.toNat < 0x80 := by
    simp only [Char.isAlpha, Char.isUpper, Char.isLower, ge_iff_le, Bool.or_eq_true,
      Bool.and_eq_true, decide_eq_true_eq, UInt32.le_iff_toNat_le] at h
    have hval : c.toNat = c.val.toNat := rfl
    rcases h with ⟨-, h⟩ | ⟨-, h⟩
    · exact Nat.lt_of_le_of_lt h (by decide)
    · exact Nat.lt_of_le_of_lt h (by decide)
  rw [isLetter, if_pos hascii]
  exact h

/-- Letters and digits come behind the blanks. -/
theorem le_of_isAlphanum {c : Char} (h : (c.isAlpha || c.isDigit) = true) : 0x30 ≤ c.toNat := by
  have hval : c.toNat = c.val.toNat := rfl
  simp only [Char.isAlpha, Char.isUpper, Char.isLower, Char.isDigit, Bool.or_eq_true,
    Bool.and_eq_true, decide_eq_true_eq, UInt32.le_iff_toNat_le, ge_iff_le] at h
  have hletter : 'A'.val.toNat = 0x41 ∧ 'a'.val.toNat = 0x61 ∧ '0'.val.toNat = 0x30 :=
    ⟨rfl, rfl, rfl⟩
  omega

/-- Blanks are no letters or numerals. -/
theorem isLetterOrNumeral_of_isBlank {c : Char} (h : isBlank c = true) :
    isLetterOrNumeral c = false := by
  have htables : ∀ r ∈ blankRanges, ∀ n ∈ List.range' r.1 (r.2 + 1 - r.1),
      inRanges letterRanges n = false ∧ inRanges numeralRanges n = false ∧
        (n < 0x80 → n < 0x30) := by
    decide +kernel
  obtain ⟨r, hr, hlower, hupper⟩ := inRanges_iff.mp h
  obtain ⟨hletter, hnumeral, hascii⟩ :=
    htables r hr c.toNat (List.mem_range'_1.mpr (by omega))
  rw [isLetterOrNumeral, isLetter, isNumeral, charIn, charIn, hletter, hnumeral]
  by_cases hsmall : c.toNat < 0x80
  · rw [if_pos hsmall, if_pos hsmall]
    by_contra hword
    have hlow := le_of_isAlphanum (eq_true_of_ne_false hword)
    have hhigh := hascii hsmall
    omega
  · rw [if_neg hsmall, if_neg hsmall]
    rfl

end Text

namespace Lexeme

open Text (byteLength isBlank)

variable {alphabet : List String}

/-- Nothing is left to scan at the end. -/
theorem scanFrom_nil (fuel position : Nat) : scanFrom alphabet fuel position [] = .ok [] := by
  cases fuel with
  | zero => rfl
  | succ fuel => rfl

/-- Blanks are passed over. -/
theorem scanFrom_blank {c : Char} (hc : isBlank c = true) (fuel position : Nat) (cs : List Char) :
    scanFrom alphabet (fuel + 1) position (c :: cs) =
      scanFrom alphabet fuel (position + c.utf8Size) cs := by
  rw [scanFrom, if_pos hc]

/-- The token in front of the rest is what was taken. -/
theorem tokenBefore_append (position : Nat) (cs rest : List Char) :
    tokenBefore position (cs ++ rest) rest = Token.ofChars position cs := by
  simp [tokenBefore]

/-- Characters of words begin neither a blank nor a group. -/
theorem starts_single {c : Char} (hc : isWordChar c = true) :
    isBlank c = false ∧ c ≠ '(' ∧ c ≠ ')' := by
  simp only [isWordChar, Bool.and_eq_true, Bool.not_eq_true'] at hc
  refine ⟨hc.1, ?_, ?_⟩
  · rintro rfl
    simp at hc
  · rintro rfl
    simp at hc

/-- A single lexeme is taken from the front, and the rest is scanned behind
it. -/
theorem scanFrom_single {fuel position : Nat} {c : Char} {cs behind : List Char} {l : Lexeme}
    {ls : List Lexeme} (hc : isWordChar c = true)
    (hsingle : single? alphabet position (c :: cs) = .ok (some (l, behind)))
    (hrest : scanFrom alphabet fuel l.token.stop behind = .ok ls) :
    scanFrom alphabet (fuel + 1) position (c :: cs) = .ok (l :: ls) := by
  obtain ⟨hblank, hopen, hclose⟩ := starts_single hc
  rw [scanFrom, if_neg (by simp [hblank]), if_neg hclose, if_neg hopen, hsingle]
  simp only [bind, Except.bind, hrest]
  rfl

/-- The first lexeme of a text that starts with a character of a word. -/
theorem single?_of_scanFrom {fuel position : Nat} {c : Char} {cs : List Char} {l : Lexeme}
    {ls : List Lexeme} (hc : isWordChar c = true)
    (h : scanFrom alphabet (fuel + 1) position (c :: cs) = .ok (l :: ls)) :
    ∃ behind, single? alphabet position (c :: cs) = .ok (some (l, behind)) := by
  obtain ⟨hblank, hopen, hclose⟩ := starts_single hc
  rw [scanFrom, if_neg (by simp [hblank]), if_neg hclose, if_neg hopen] at h
  cases hsingle : single? alphabet position (c :: cs) with
  | error e => simp [hsingle, bind, Except.bind] at h
  | ok found =>
      match found with
      | none =>
          rw [hsingle] at h
          cases h
      | some (l', behind) =>
          simp only [hsingle, bind, Except.bind] at h
          split at h
          · cases h
          · simp only [pure, Except.pure, Except.ok.injEq, List.cons.injEq] at h
            exact ⟨behind, by rw [h.1]⟩

/-- A balanced group is scanned by itself, and the rest behind it. -/
theorem scanFrom_group {fuel position : Nat} {inside behind : List Char} {inner ls : List Lexeme}
    (hbalanced : IsBalanced inside)
    (hinner : scanFrom alphabet fuel (position + 1) inside = .ok inner) (hfilled : inner ≠ [])
    (hrest : scanFrom alphabet fuel (position + byteLength ('(' :: inside ++ [')'])) behind =
      .ok ls) :
    scanFrom alphabet (fuel + 1) position ('(' :: inside ++ [')'] ++ behind) =
      .ok (.group inner (Token.ofChars position ('(' :: inside ++ [')'])) :: ls) := by
  have hlist : '(' :: inside ++ [')'] ++ behind = '(' :: (inside ++ ')' :: behind) := by simp
  have htoken : tokenBefore position ('(' :: (inside ++ ')' :: behind)) behind =
      Token.ofChars position ('(' :: inside ++ [')']) := by
    rw [← hlist, tokenBefore_append]
  rw [hlist, scanFrom, if_neg (by decide), if_neg (by decide), if_pos rfl,
    delimited?_group hbalanced]
  simp only [bind, Except.bind, hinner, htoken]
  have hstop : (Token.ofChars position ('(' :: inside ++ [')'])).stop =
      position + byteLength ('(' :: inside ++ [')']) := rfl
  rw [hstop, hrest]
  cases inner with
  | nil => exact absurd rfl hfilled
  | cons l inner => rfl

section Single

variable {position : Nat} {cs : List Char}

/-- Combinators come before all other single lexemes. -/
theorem single?_of_combinator {kind : Token → Lexeme} {behind : List Char}
    (h : combinator? cs = some (kind, behind)) :
    single? alphabet position cs =
      .ok (some (kind (tokenBefore position cs behind), behind)) := by
  simp only [single?, h]
  rfl

/-- A filter comes where there is neither a combinator nor a nested query. -/
theorem single?_of_filter {kind : Token → Lexeme} {behind : List Char}
    (hcombinator : combinator? cs = none) (hblock : block? position cs = .ok none)
    (h : filter? alphabet position cs = .ok (some (kind, behind))) :
    single? alphabet position cs =
      .ok (some (kind (tokenBefore position cs behind), behind)) := by
  simp only [single?, hcombinator, bind, Except.bind, hblock, h]
  rfl

/-- A combinator is one of three. -/
theorem combinator?_kind {kind : Token → Lexeme} {behind : List Char}
    (h : combinator? cs = some (kind, behind)) : kind = and ∨ kind = or ∨ kind = not := by
  unfold combinator? at h
  split at h
  · split at h
    · cases h
    · cases h
      exact .inr (.inr rfl)
  · dsimp only at h
    split at h
    · next found hkeyword =>
        split at h
        · cases h
          unfold keyword? at hkeyword
          dsimp only at hkeyword
          split at hkeyword
          · exact .inl (Option.some.inj hkeyword).symm
          · split at hkeyword
            · exact .inr (.inl (Option.some.inj hkeyword).symm)
            · split at hkeyword
              · exact .inr (.inr (Option.some.inj hkeyword).symm)
              · cases hkeyword
        · cases h
    · cases h

/-- A toggle has a name. -/
theorem toggle?_kind {kind : Token → Lexeme} {behind : List Char}
    (h : toggle? cs = some (kind, behind)) : ∃ name, kind = toggle name := by
  unfold toggle? at h
  split at h
  · dsimp only at h
    split at h
    · cases h
    · cases h
      exact ⟨_, rfl⟩
  · cases h

/-- A comment has a text. -/
theorem comment?_kind {kind : Token → Lexeme} {behind : List Char}
    (h : comment? cs = some (kind, behind)) : ∃ text, kind = comment text := by
  unfold comment? at h
  split at h
  · cases h
    exact ⟨_, rfl⟩
  · cases h

/-- A word gives a word. -/
theorem word?_kind {kind : Token → Lexeme} {behind : List Char}
    (h : word? position cs = .ok (some (kind, behind))) : ∃ w, kind = word w := by
  unfold word? at h
  split at h
  -- The word, or the phrase, behind the mark of an exact one.
  next exact body hstart =>
  split at h
  · split at h
    · cases h
      exact ⟨_, rfl⟩
    · cases h
  · dsimp only at h
    split at h
    · cases h
      exact ⟨_, rfl⟩
    · split at h
      · cases h
        exact ⟨_, rfl⟩
      · cases h

/-- The rules behind that for filters find no filters. -/
theorem single?_of_no_filter (hcombinator : combinator? cs = none)
    (hblock : block? position cs = .ok none) (h : filter? alphabet position cs = .ok none)
    {f : FilterExpression} {block : Option NestedBlock} {token : Token} {behind : List Char} :
    single? alphabet position cs ≠ .ok (some (.filter f block token, behind)) := by
  simp only [single?, hcombinator, bind, Except.bind, hblock, h]
  intro hfound
  cases htoggle : toggle? cs with
  | some found =>
      obtain ⟨name, hkind⟩ := toggle?_kind htoggle
      simp [htoggle, hkind, pure, Except.pure] at hfound
  | none =>
      cases hcomment : comment? cs with
      | some found =>
          obtain ⟨text, hkind⟩ := comment?_kind hcomment
          simp [htoggle, hcomment, hkind, pure, Except.pure] at hfound
      | none =>
          cases hword : word? position cs with
          | error e => simp [htoggle, hcomment, hword] at hfound
          | ok found =>
              cases found with
              | none => simp [htoggle, hcomment, hword, pure, Except.pure] at hfound
              | some found =>
                  obtain ⟨w, hkind⟩ := word?_kind hword
                  simp [htoggle, hcomment, hword, hkind, pure, Except.pure] at hfound

end Single

/-- The text is at its end, or goes on with the character. -/
inductive Ends (b : Char) : List Char → Prop where
  | nothing : Ends b []
  | blank (behind : List Char) : Ends b (b :: behind)

section Plain

variable {position : Nat} {cs rest : List Char} {b : Char}

/-- What ends in front of a sign is taken as if nothing came behind it. -/
theorem Ends.takeWhile_append (hrest : Ends b rest) {p : Char → Bool} (hp : p b = false) :
    (cs ++ rest).takeWhile p = cs.takeWhile p := by
  induction cs with
  | nil =>
      cases hrest with
      | nothing => rfl
      | blank behind => simp [hp]
  | cons c cs ih =>
      cases hc : p c with
      | true => simp [hc, ih]
      | false => simp [hc]

/-- What ends in front of a sign leaves the rest behind it. -/
theorem Ends.dropWhile_append (hrest : Ends b rest) {p : Char → Bool} (hp : p b = false) :
    (cs ++ rest).dropWhile p = cs.dropWhile p ++ rest := by
  induction cs with
  | nil =>
      cases hrest with
      | nothing => rfl
      | blank behind => simp [hp]
  | cons c cs ih =>
      cases hc : p c with
      | true => simp [hc, ih]
      | false => simp [hc]

/-- What does not hold the character begins a text if it begins the part before
the character. -/
theorem Ends.isPrefixOf_append (hrest : Ends b rest) {op : List Char} (hop : b ∉ op) :
    op.isPrefixOf (cs ++ rest) = op.isPrefixOf cs := by
  induction op generalizing cs with
  | nil => rfl
  | cons o op ih =>
      rw [List.mem_cons, not_or] at hop
      cases cs with
      | nil =>
          cases hrest with
          | nothing => rfl
          | blank behind =>
              have ho : (o == b) = false := by simpa using Ne.symm hop.1
              simp [List.isPrefixOf, ho]
      | cons c cs => rw [List.cons_append, List.isPrefixOf, List.isPrefixOf, ih hop.2]

/-- An operator is found in front of a sign that no operator holds, whatever
comes behind. -/
theorem Ends.operator?_append (hrest : Ends b rest) (halphabet : ∀ op ∈ alphabet, b ∉ op.toList) :
    operator? alphabet (cs ++ rest) =
      (operator? alphabet cs).map fun (op, value) => (op, value ++ rest) := by
  induction alphabet with
  | nil => rfl
  | cons op alphabet ih =>
      have hop : op.toList.isPrefixOf (cs ++ rest) = op.toList.isPrefixOf cs :=
        hrest.isPrefixOf_append (halphabet op (by simp))
      have hrest' := ih fun op hop => halphabet op (List.mem_cons_of_mem _ hop)
      simp only [operator?, List.find?_cons, hop] at hrest' ⊢
      cases hfound : op.toList.isPrefixOf cs with
      | true =>
          have hlength : op.toList.length ≤ cs.length :=
            (List.isPrefixOf_iff_prefix.mp hfound).length_le
          simp [List.drop_append_of_le_length hlength]
      | false => exact hrest'

/-- An operator that is found stands in front and is one of the alphabet. -/
theorem operator?_eq_some {op : String} {value : List Char}
    (h : operator? alphabet cs = some (op, value)) : op ∈ alphabet ∧ cs = op.toList ++ value := by
  obtain ⟨op', hfind, hop⟩ := Option.map_eq_some_iff.mp h
  cases hop
  have hprefix : op.toList.isPrefixOf cs = true := by simpa using List.find?_some hfind
  obtain ⟨value, rfl⟩ := List.isPrefixOf_iff_prefix.mp hprefix
  exact ⟨List.mem_of_find?_eq_some hfind, by rw [List.drop_left]⟩

/-- Characters of words, and hence no delimiters among them. -/
def IsPlain (cs : List Char) : Prop := ∀ c ∈ cs, isWordChar c = true

/-- The rest of a plain text is plain. -/
theorem IsPlain.drop_while (h : IsPlain cs) (p : Char → Bool) : IsPlain (cs.dropWhile p) :=
  fun c hc => h c (List.dropWhile_subset p hc)

/-- Plain texts are balanced. -/
theorem IsPlain.isBalanced (h : IsPlain cs) : IsBalanced cs :=
  .plain fun c hc => isPlain_of_isWordChar (h c hc)

/-- Plain text does not go on with a delimiter. -/
theorem Ends.head_ne (hrest : Ends b rest) (h : IsPlain cs) {d : Char} (hd : isWordChar d = false)
    (hblank : d ≠ b) : (cs ++ rest).head? ≠ some d := by
  cases cs with
  | nil =>
      cases hrest with
      | nothing => simp
      | blank behind => simpa using Ne.symm hblank
  | cons c cs =>
      simp only [List.cons_append, List.head?_cons, ne_eq, Option.some.injEq]
      rintro rfl
      simp [h c List.mem_cons_self] at hd

/-- Plain texts begin no nested query. -/
theorem Ends.block?_append (hrest : Ends ' ' rest) (h : IsPlain cs) :
    block? position (cs ++ rest) = .ok none := by
  have hhead := hrest.head_ne (h.drop_while isAggregatorChar) (d := '\x7b') (by decide) (by decide)
  rw [block?]
  dsimp only
  rw [hrest.dropWhile_append (by decide), if_neg hhead]
  rfl

/-- Plain texts begin no parameter. -/
theorem Ends.parameter?_append (hrest : Ends ' ' rest) (h : IsPlain cs) :
    parameter? (cs ++ rest) = some (none, cs ++ rest) := by
  have hhead := hrest.head_ne h (d := '(') (by decide) (by decide)
  unfold parameter?
  split
  · next heq => simp [heq] at hhead
  · rfl

/-- The value of a filter is the plain text behind its operator. -/
theorem Ends.filterValue_append (hrest : Ends ' ' rest) (h : IsPlain cs) :
    filterValue position (cs ++ rest) = .ok ({ text := String.ofList cs }, rest) := by
  have hhead := hrest.head_ne h (d := '"') (by decide) (by decide)
  have hvalue : ∀ c ∈ cs, isValueChar c = true := by
    intro c hc
    have hplain := h c hc
    simp only [isWordChar, Bool.and_eq_true] at hplain
    simp_all [isValueChar]
  unfold filterValue
  split
  · next heq => simp [heq] at hhead
  · rw [hrest.block?_append h, hrest.takeWhile_append (by decide),
      hrest.dropWhile_append (by decide), List.takeWhile_eq_self_iff.mpr hvalue,
      List.dropWhile_eq_nil_iff.mpr hvalue]
    rfl

/-- The filter that plain text is: a name, and behind it an operator and a
value. -/
def plainFilter? (alphabet : List String) : List Char → Option FilterExpression
  | [] => none
  | c :: tail =>
    if isNameStart c then
      (operator? alphabet (tail.dropWhile isNameChar)).map fun (operator, value) =>
        { name := String.ofList (c :: tail.takeWhile isNameChar), operator
          value := String.ofList value }
    else none

/-- A filter in a plain text ends with it. -/
theorem Ends.filter?_append (hrest : Ends ' ' rest) (halphabet : ∀ op ∈ alphabet, ' ' ∉ op.toList)
    (h : IsPlain cs) :
    filter? alphabet position (cs ++ rest) =
      .ok ((plainFilter? alphabet cs).map fun f => (filter f none, rest)) := by
  cases cs with
  | nil =>
      cases hrest with
      | nothing => rfl
      | blank behind => rfl
  | cons c tail =>
      have htail : IsPlain tail := fun d hd => h d (List.mem_cons_of_mem c hd)
      have hbehind : IsPlain (tail.dropWhile isNameChar) := htail.drop_while _
      rw [List.cons_append, filter?, plainFilter?]
      cases hstart : isNameStart c with
      | false => rfl
      | true =>
          simp only [Bool.not_true, Bool.false_eq_true, if_false, if_true]
          rw [hrest.dropWhile_append (by decide), hrest.takeWhile_append (by decide),
            hrest.parameter?_append hbehind]
          dsimp only
          rw [hrest.operator?_append halphabet]
          cases hoperator : operator? alphabet (tail.dropWhile isNameChar) with
          | none => rfl
          | some found =>
              obtain ⟨operator, value⟩ := found
              have hvalue : IsPlain value := by
                rw [(operator?_eq_some hoperator).2] at hbehind
                exact fun d hd => hbehind d (List.mem_append_right _ hd)
              simp only [Option.map_some, hrest.filterValue_append hvalue]
              rfl

/-- A character that is no blank differs from every blank. -/
theorem ne_of_isBlank (hb : isBlank b = true) {d : Char} (hd : isBlank d = false) : d ≠ b := by
  rintro rfl
  exact absurd (hb.symm.trans hd) (by decide)

/-- Blanks are no letters. -/
theorem isAlpha_of_isBlank (hb : isBlank b = true) : b.isAlpha = false := by
  have hletter := Text.isLetterOrNumeral_of_isBlank hb
  rw [Text.isLetterOrNumeral, Bool.or_eq_false_iff] at hletter
  by_contra halpha
  have hisLetter := Text.isLetter_of_isAlpha (eq_true_of_ne_false halpha)
  exact absurd (hisLetter.symm.trans hletter.1) (by decide)

/-- What a rule has found, in front of more text. -/
def followed {β : Type} (rest : List Char) : Scanned β → Scanned β :=
  Option.map (Prod.map id (· ++ rest))

/-- Text without a minus sign in front starts with a combinator if its letters
are a keyword. -/
theorem combinator?_of_no_dash (h : ∀ tail, cs ≠ '-' :: tail) :
    combinator? cs = (keyword? (cs.takeWhile Char.isAlpha)).bind fun kind =>
      if endsKeyword (cs.dropWhile Char.isAlpha) then some (kind, cs.dropWhile Char.isAlpha)
      else none := by
  unfold combinator?
  split
  · exact absurd rfl (h _)
  · dsimp only
    cases keyword? (cs.takeWhile Char.isAlpha) with
    | none => rfl
    | some kind => rfl

section Blank

variable (hrest : Ends b rest) (hb : isBlank b = true)
include hrest hb

/-- A text that goes on with a blank, or ends, does not go on with another
character. -/
theorem Ends.head?_ne {d : Char} (hd : isBlank d = false) : rest.head? ≠ some d := by
  cases hrest with
  | nothing => exact fun h => by cases h
  | blank behind => exact fun h => ne_of_isBlank hb hd (Option.some.inj h).symm

/-- The first character decides if there is one, and a blank does not fit. -/
theorem Ends.head?_append_ne {d : Char} (hd : isBlank d = false) (h : cs.head? ≠ some d) :
    (cs ++ rest).head? ≠ some d := by
  cases cs with
  | nil => exact hrest.head?_ne hb hd
  | cons c cs => exact h

/-- A keyword ends where the text does, or in front of the sign. -/
theorem Ends.endsKeyword_append (cs : List Char) : endsKeyword (cs ++ rest) = endsKeyword cs := by
  cases cs with
  | nil =>
      cases hrest with
      | nothing => rfl
      | blank behind => simp [endsKeyword, hb]
  | cons c cs => rfl

/-- A combinator in front of a sign is found whatever comes behind. -/
theorem Ends.combinator?_followed (cs : List Char) :
    combinator? (cs ++ rest) = followed rest (combinator? cs) := by
  by_cases hdash : ∃ tail, cs = '-' :: tail
  · obtain ⟨tail, rfl⟩ := hdash
    cases tail with
    | nil =>
        cases hrest with
        | nothing => rfl
        | blank behind =>
            have hnone : combinator? ['-'] = none := rfl
            rw [hnone, List.singleton_append, combinator?, if_pos hb]
            rfl
    | cons c tail =>
        rw [List.cons_append, List.cons_append, combinator?, combinator?]
        split
        · rfl
        · rfl
  · have hhead : cs.head? ≠ some '-' := by
      intro h
      exact hdash ⟨cs.tail, (List.eq_cons_of_mem_head? h)⟩
    have hdash' : ∀ tail, cs ++ rest ≠ '-' :: tail := by
      intro tail h
      exact hrest.head?_append_ne hb (by decide) hhead (by rw [h]; rfl)
    rw [combinator?_of_no_dash hdash', combinator?_of_no_dash fun tail h => hdash ⟨tail, h⟩,
      hrest.takeWhile_append (isAlpha_of_isBlank hb),
      hrest.dropWhile_append (isAlpha_of_isBlank hb), hrest.endsKeyword_append hb]
    cases keyword? (cs.takeWhile Char.isAlpha) with
    | none => rfl
    | some kind =>
        rw [Option.bind_some, Option.bind_some]
        split
        · rfl
        · rfl

end Blank

/-- **Plain text that is a filter by itself is one in front of a blank.** -/
theorem Ends.single?_append (hrest : Ends ' ' rest) {f : FilterExpression}
    (halphabet : ∀ op ∈ alphabet, IsOperatorToken op) (hplain : IsPlain cs)
    (hcombinator : combinator? cs = none) (h : plainFilter? alphabet cs = some f) :
    single? alphabet position (cs ++ rest) =
      .ok (some (.filter f none (Token.ofChars position cs), rest)) := by
  have hblanks : ∀ op ∈ alphabet, ' ' ∉ op.toList :=
    fun op hop => (halphabet op hop).not_mem (by decide)
  have hnone : combinator? (cs ++ rest) = none := by
    rw [hrest.combinator?_followed (by decide), hcombinator]
    rfl
  rw [single?_of_filter hnone (hrest.block?_append hplain)
    ((hrest.filter?_append hblanks hplain).trans (by rw [h]; rfl)), tokenBefore_append]

/-- **Plain text that scans to a filter is one by itself.** -/
theorem plainFilter?_of_scan (halphabet : ∀ op ∈ alphabet, IsOperatorToken op) {text : String}
    {f : FilterExpression} {block : Option NestedBlock} {token : Token}
    (hplain : IsPlain text.toList)
    (h : scan alphabet text = .ok [.filter f block token]) :
    block = none ∧ combinator? text.toList = none ∧ plainFilter? alphabet text.toList = some f := by
  have hblanks : ∀ op ∈ alphabet, ' ' ∉ op.toList :=
    fun op hop => (halphabet op hop).not_mem (by decide)
  rw [scan] at h
  generalize text.toList = cs at h hplain ⊢
  cases cs with
  | nil => cases h
  | cons c tail =>
      obtain ⟨behind, hsingle⟩ :=
        single?_of_scanFrom (hplain c List.mem_cons_self) h
      have hblock : block? 0 (c :: tail ++ []) = .ok none := Ends.nothing.block?_append hplain
      have hfilter : filter? alphabet 0 (c :: tail ++ []) =
          .ok ((plainFilter? alphabet (c :: tail)).map fun f => (filter f none, [])) :=
        Ends.nothing.filter?_append hblanks hplain
      rw [List.append_nil] at hblock hfilter
      cases hcombinator : combinator? (c :: tail) with
      | some found =>
          exfalso
          rw [single?_of_combinator hcombinator] at hsingle
          have hkind := combinator?_kind hcombinator
          rcases hkind with hkind | hkind | hkind <;> simp [hkind] at hsingle
      | none =>
          cases hplainFilter : plainFilter? alphabet (c :: tail) with
          | none =>
              rw [hplainFilter] at hfilter
              exact absurd hsingle (single?_of_no_filter hcombinator hblock hfilter)
          | some f' =>
              rw [hplainFilter] at hfilter
              rw [single?_of_filter hcombinator hblock hfilter] at hsingle
              simp only [Except.ok.injEq, Option.some.injEq, Prod.mk.injEq, Lexeme.filter.injEq]
                at hsingle
              obtain ⟨⟨rfl, rfl, -⟩, -⟩ := hsingle
              exact ⟨rfl, rfl, rfl⟩

end Plain

end Lexeme

end FilterQuery
