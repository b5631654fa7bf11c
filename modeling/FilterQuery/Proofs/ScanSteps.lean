import FilterQuery.Proofs.Scanning

/-!
# What the scanner takes

Each rule of the scanner takes characters off the front of the text and leaves
the others as they are, and it takes one at least.  So a scan that succeeds is a
derivation over the text: blanks, groups with the text between their
parentheses, and lexemes that a rule has found.
-/

namespace FilterQuery

open Text (byteLength isBlank)

/-- The characters up to the one that closes everything open, and those behind
it. -/
inductive Closes : Depth → Bool → List Char → List Char → List Char → Prop where
  | quoted {depth : Depth} {c : Char} {cs taken rest : List Char}
      (h : Closes depth (c ≠ '"') cs taken rest) : Closes depth true (c :: cs) (c :: taken) rest
  | quote {depth : Depth} {cs taken rest : List Char} (hmatch : '"' ∈ cs)
      (h : Closes depth true cs taken rest) : Closes depth false ('"' :: cs) ('"' :: taken) rest
  | next {depth : Depth} {c : Char} {cs taken rest : List Char} (hc : c ≠ '"')
      (hopen : depth.step c ≠ {}) (h : Closes (depth.step c) false cs taken rest) :
      Closes depth false (c :: cs) (c :: taken) rest
  | last {depth : Depth} {c : Char} (hc : c ≠ '"') (hclosed : depth.step c = {})
      (rest : List Char) : Closes depth false (c :: rest) [c] rest

/-- What is found with characters in front is found without them. -/
theorem prepend_eq_found {cs taken rest : List Char}
    {found : Except QueryError (Option (List Char × List Char))}
    (h : prepend cs found = .ok (some (taken, rest))) :
    ∃ more, taken = cs ++ more ∧ found = .ok (some (more, rest)) := by
  match found with
  | .error _ => cases h
  | .ok none => cases h
  | .ok (some (more, rest')) =>
    cases h
    exact ⟨more, rfl, rfl⟩

/-- One character, at any depth. -/
theorem closing_step (depth : Depth) (quoted : Bool) (position : Nat) (c : Char)
    (cs : List Char) :
    closing depth quoted position (c :: cs) =
      if quoted then prepend [c] (closing depth (c ≠ '"') (position + c.utf8Size) cs)
      else if c = '"' then
        if cs.contains '"' then prepend [c] (closing depth true (position + c.utf8Size) cs)
        else .error ⟨.unterminatedPhrase, position, byteLength (c :: cs)⟩
      else if depth.step c = {} then .ok (some ([c], cs))
      else prepend [c] (closing (depth.step c) false (position + c.utf8Size) cs) := by
  rw [closing]
  rfl

/-- **Counting finds the characters up to the closing one**, wherever the text
stands. -/
theorem closing_eq_found {depth : Depth} {quoted : Bool} {position : Nat}
    {cs taken rest : List Char} :
    closing depth quoted position cs = .ok (some (taken, rest)) ↔
      Closes depth quoted cs taken rest := by
  constructor
  · intro h
    induction cs generalizing depth quoted position taken with
    | nil => cases h
    | cons c cs ih =>
        rw [closing_step] at h
        split at h
        · next hquoted =>
            obtain ⟨more, rfl, hfound⟩ := prepend_eq_found h
            rw [hquoted]
            exact .quoted (ih hfound)
        · next hquoted =>
            rw [eq_false_of_ne_true hquoted]
            split at h
            · next hquote =>
                split at h
                · next hmatch =>
                    obtain ⟨more, rfl, hfound⟩ := prepend_eq_found h
                    subst hquote
                    exact .quote (List.contains_iff_mem.mp hmatch) (ih hfound)
                · cases h
            · next hquote =>
                split at h
                · next hclosed =>
                    cases h
                    exact .last hquote hclosed _
                · next hopen =>
                    obtain ⟨more, rfl, hfound⟩ := prepend_eq_found h
                    exact .next hquote hopen (ih hfound)
  · intro h
    induction h generalizing position with
    | quoted h ih =>
        rw [closing_step, if_pos rfl, ih]
        rfl
    | quote hmatch h ih =>
        rw [closing_step, if_neg (by simp), if_pos rfl,
          if_pos (List.contains_iff_mem.mpr hmatch), ih]
        rfl
    | next hc hopen h ih =>
        rw [closing_cons hc hopen, ih]
        rfl
    | last hc hclosed rest => rw [closing_step, if_neg (by simp), if_neg hc, if_pos hclosed]

namespace Closes

variable {depth : Depth} {quoted : Bool} {cs taken rest : List Char}

/-- What closes takes a piece of the text and leaves the rest. -/
theorem eq_append (h : Closes depth quoted cs taken rest) : cs = taken ++ rest ∧ taken ≠ [] := by
  induction h with
  | quoted _ ih => exact ⟨congrArg _ ih.1, List.cons_ne_nil _ _⟩
  | quote _ _ ih => exact ⟨congrArg _ ih.1, List.cons_ne_nil _ _⟩
  | next _ _ _ ih => exact ⟨congrArg _ ih.1, List.cons_ne_nil _ _⟩
  | last _ _ _ => exact ⟨rfl, List.cons_ne_nil _ _⟩

/-- A parenthesis stays open until one closes everything. -/
theorem step_parentheses (hopen : 0 < depth.parentheses) (c : Char) :
    0 < (depth.step c).parentheses ∨ depth.step c = {} ∧ c = ')' := by
  obtain ⟨parentheses, braces⟩ := depth
  have hpos : 0 < parentheses := hopen
  unfold Depth.step
  dsimp only
  by_cases hbraces : 0 < braces
  · rw [if_pos hbraces]
    left
    split
    · exact hpos
    · split
      · exact hpos
      · exact hpos
  · rw [if_neg hbraces]
    split
    · exact .inl hpos
    · split
      · exact .inl (Nat.succ_pos _)
      · split
        · next hclose =>
            obtain rfl : braces = 0 := Nat.eq_zero_of_not_pos hbraces
            by_cases hone : parentheses = 1
            · exact .inr ⟨by rw [hone], hclose⟩
            · exact .inl (by dsimp only; omega)
        · exact .inl hpos

/-- An open parenthesis is closed by a parenthesis. -/
theorem parenthesis (h : Closes depth quoted cs taken rest) (hopen : 0 < depth.parentheses) :
    ∃ inside, taken = inside ++ [')'] := by
  induction h with
  | quoted _ ih =>
      obtain ⟨inside, rfl⟩ := ih hopen
      exact ⟨_ :: inside, rfl⟩
  | quote _ _ ih =>
      obtain ⟨inside, rfl⟩ := ih hopen
      exact ⟨_ :: inside, rfl⟩
  | @next depth c _ _ _ _ hstays _ ih =>
      rcases step_parentheses hopen c with hleft | ⟨hclosed, -⟩
      · obtain ⟨inside, rfl⟩ := ih hleft
        exact ⟨_ :: inside, rfl⟩
      · exact absurd hclosed hstays
  | @last depth c _ hclosed _ =>
      rcases step_parentheses hopen c with hleft | ⟨-, rfl⟩
      · rw [hclosed] at hleft
        cases hleft
      · exact ⟨[], rfl⟩

end Closes

/-- What a delimiter encloses is what closes it, without the two delimiters. -/
theorem delimited?_eq_found {position : Nat} {cs inside behind : List Char} :
    delimited? position cs = .ok (some (inside, behind)) ↔
      ∃ taken, Closes {} false cs taken behind ∧ inside = taken.tail.dropLast := by
  rw [delimited?]
  constructor
  · intro h
    cases hclosing : closing {} false position cs with
    | error e =>
        rw [hclosing] at h
        cases h
    | ok found =>
        cases found with
        | none =>
            rw [hclosing] at h
            cases h
        | some found =>
            rw [hclosing] at h
            cases h
            exact ⟨found.1, closing_eq_found.mp hclosing, rfl⟩
  · intro h
    obtain ⟨taken, htaken, rfl⟩ := h
    rw [closing_eq_found.mpr htaken]
    rfl

/-- What a parenthesis delimits ends with one. -/
theorem delimited?_parenthesis {position : Nat} {cs inside behind : List Char}
    (h : delimited? position ('(' :: cs) = .ok (some (inside, behind))) :
    cs = inside ++ ')' :: behind := by
  obtain ⟨taken, htaken, rfl⟩ := delimited?_eq_found.mp h
  cases htaken with
  | @next _ _ _ taken _ _ _ htaken =>
      obtain ⟨rfl, -⟩ := htaken.eq_append
      obtain ⟨inside, rfl⟩ := htaken.parenthesis (Nat.succ_pos _)
      simp
  | last _ hclosed _ => cases hclosed

namespace Lexeme

variable {alphabet : List String} {position : Nat} {cs behind : List Char}

/-- What is left of the text is its end, and something has been taken. -/
structure Takes (cs behind : List Char) : Prop where
  suffix : behind <:+ cs
  shorter : behind.length < cs.length

namespace Takes

theorem cons (c : Char) (cs : List Char) : Takes (c :: cs) cs :=
  ⟨List.suffix_cons c cs, by simp⟩

/-- A piece in front has been taken. -/
theorem append {piece : List Char} (h : piece ≠ []) (behind : List Char) :
    Takes (piece ++ behind) behind := by
  have hlength := List.length_pos_of_ne_nil h
  refine ⟨List.suffix_append piece behind, ?_⟩
  rw [List.length_append]
  omega

/-- Of what is left more may be taken. -/
theorem trans {rest : List Char} (h : Takes cs rest) (hrest : behind <:+ rest) :
    Takes cs behind :=
  ⟨hrest.trans h.suffix, Nat.lt_of_le_of_lt hrest.length_le h.shorter⟩

/-- What has been taken from an end of the text has been taken from the text. -/
theorem of_suffix {rest : List Char} (h : Takes rest behind) (hrest : rest <:+ cs) :
    Takes cs behind :=
  ⟨h.suffix.trans hrest, Nat.lt_of_lt_of_le h.shorter hrest.length_le⟩

/-- Characters of a sort in front have been taken. -/
theorem dropWhile {p : Char → Bool} (h : cs.takeWhile p ≠ []) : Takes cs (cs.dropWhile p) := by
  have happend : Takes (cs.takeWhile p ++ cs.dropWhile p) (cs.dropWhile p) := append h _
  rwa [List.takeWhile_append_dropWhile] at happend

/-- The text is what has been taken, and what is left. -/
theorem exists_piece (h : Takes cs behind) : ∃ piece, piece ≠ [] ∧ cs = piece ++ behind := by
  obtain ⟨piece, rfl⟩ := h.suffix
  refine ⟨piece, ?_, rfl⟩
  rintro rfl
  exact absurd h.shorter (Nat.lt_irrefl _)

end Takes

/-- A combinator takes its characters. -/
theorem combinator?_takes {kind : Token → Lexeme} (h : combinator? cs = some (kind, behind)) :
    Takes cs behind := by
  unfold combinator? at h
  split at h
  · split at h
    · cases h
    · cases h
      exact .cons _ _
  · dsimp only at h
    split at h
    · next hkeyword =>
        split at h
        · cases h
          refine .dropWhile fun hnil => ?_
          have hnone : keyword? [] = none := rfl
          rw [hnil, hnone] at hkeyword
          cases hkeyword
        · cases h
    · cases h

/-- A block is the name of an aggregator, or none, and what braces delimit. -/
theorem block?_eq_found {block : NestedBlock} :
    block? position cs = .ok (some (block, behind)) ↔
      ∃ query, (cs.dropWhile isAggregatorChar).head? = some '\x7b' ∧
        delimited? (position + byteLength (cs.takeWhile isAggregatorChar))
          (cs.dropWhile isAggregatorChar) = .ok (some (query, behind)) ∧
        block = {
          aggregator := if (cs.takeWhile isAggregatorChar).isEmpty then none
            else some (String.ofList (cs.takeWhile isAggregatorChar))
          query := String.ofList (Text.trimChars query)
          token := tokenBefore position cs behind } := by
  rw [block?]
  dsimp only
  constructor
  · intro h
    split at h
    · next hbrace =>
        cases hfound : delimited? (position + byteLength (cs.takeWhile isAggregatorChar))
            (cs.dropWhile isAggregatorChar) with
        | error e => simp [hfound, bind, Except.bind] at h
        | ok found =>
            cases found with
            | none => simp [hfound, bind, Except.bind, throw, throwThe, MonadExceptOf.throw] at h
            | some found =>
                simp only [hfound, bind, Except.bind, pure, Except.pure, Except.ok.injEq,
                  Option.some.injEq, Prod.mk.injEq] at h
                obtain ⟨hblock, hbehind⟩ := h
                exact ⟨found.1, hbrace, by rw [← hbehind], by rw [← hblock, hbehind]⟩
    · cases h
  · intro h
    obtain ⟨query, hbrace, hfound, rfl⟩ := h
    rw [if_pos hbrace, hfound]
    rfl

/-- A nested query takes its characters, and its token is made of these. -/
theorem block?_takes {block : NestedBlock} (h : block? position cs = .ok (some (block, behind))) :
    Takes cs behind ∧ block.token = tokenBefore position cs behind := by
  obtain ⟨query, -, hfound, rfl⟩ := block?_eq_found.mp h
  obtain ⟨taken, htaken, -⟩ := delimited?_eq_found.mp hfound
  obtain ⟨happend, hne⟩ := htaken.eq_append
  have htakes : Takes (cs.dropWhile isAggregatorChar) behind := by
    rw [happend]
    exact .append hne behind
  exact ⟨htakes.of_suffix (List.dropWhile_suffix _), rfl⟩

/-- A text up to a quote stands in front of it. -/
theorem splitAtQuote?_eq_some {text : List Char} (h : splitAtQuote? cs = some (text, behind)) :
    cs = text ++ '"' :: behind := by
  induction cs generalizing text with
  | nil => cases h
  | cons c cs ih =>
      rw [splitAtQuote?] at h
      split at h
      · next hquote =>
          cases h
          rw [hquote]
          rfl
      · obtain ⟨found, hfound, heq⟩ := Option.map_eq_some_iff.mp h
        cases heq
        rw [ih hfound]
        rfl

/-- Behind a quote is an end of the text. -/
theorem splitAtQuote?_suffix {text : List Char} (h : splitAtQuote? cs = some (text, behind)) :
    behind <:+ cs := by
  rw [splitAtQuote?_eq_some h]
  exact (List.suffix_cons _ _).trans (List.suffix_append _ _)

/-- Behind a parameter is an end of the text. -/
theorem parameter?_suffix {param : Option String} (h : parameter? cs = some (param, behind)) :
    behind <:+ cs := by
  unfold parameter? at h
  split at h
  · next rest =>
      dsimp only at h
      split at h
      · next hclosing =>
          cases h
          have hsuffix := List.dropWhile_suffix (l := rest) fun c => !(c = '(' || c = ')')
          rw [hclosing] at hsuffix
          exact ((List.suffix_cons _ _).trans hsuffix).trans (List.suffix_cons _ _)
      · cases h
  · cases h
    exact List.suffix_refl _

/-- Behind a value is an end of the text. -/
theorem filterValue_suffix {value : FilterValue}
    (h : filterValue position cs = .ok (value, behind)) : behind <:+ cs := by
  unfold filterValue at h
  split at h
  · split at h
    · next hquote =>
        cases h
        exact (splitAtQuote?_suffix hquote).trans (List.suffix_cons _ _)
    · cases h
  · cases hblock : block? position cs with
    | error e => simp [hblock, bind, Except.bind] at h
    | ok found =>
        cases found with
        | none =>
            simp only [hblock, bind, Except.bind, pure, Except.pure, Except.ok.injEq,
              Prod.mk.injEq] at h
            rw [← h.2]
            exact List.dropWhile_suffix _
        | some found =>
            simp only [hblock, bind, Except.bind, pure, Except.pure, Except.ok.injEq,
              Prod.mk.injEq] at h
            rw [← h.2]
            exact (block?_takes hblock).1.suffix

/-- A filter is a name, perhaps with a parameter and an operator, and a value
behind these. -/
theorem filter?_eq_found {kind : Token → Lexeme}
    (h : filter? alphabet position cs = .ok (some (kind, behind))) :
    ∃ c tail f value rest, cs = c :: tail ∧ rest <:+ tail ∧
      filterValue (position + (byteLength cs - byteLength rest)) rest = .ok (value, behind) ∧
        kind = filter f value.block := by
  cases cs with
  | nil => cases h
  | cons c tail =>
      rw [filter?] at h
      split at h
      · cases h
      · dsimp only at h
        split at h
        · cases h
        · next param rest hparameter =>
            split at h
            · cases h
            · next operator value hoperator =>
                cases hvalue : filterValue
                    (position + (byteLength (c :: tail) - byteLength value)) value with
                | error e => simp [hvalue, bind, Except.bind] at h
                | ok found =>
                    simp only [hvalue, bind, Except.bind, pure, Except.pure, Except.ok.injEq,
                      Option.some.injEq, Prod.mk.injEq] at h
                    obtain ⟨rfl, rfl⟩ := h
                    have hrest : value <:+ rest := by
                      rw [(operator?_eq_some hoperator).2]
                      exact List.suffix_append _ _
                    have htail : rest <:+ tail :=
                      (parameter?_suffix hparameter).trans (List.dropWhile_suffix _)
                    exact ⟨c, tail, _, found.1, value, rfl, hrest.trans htail, hvalue, rfl⟩

/-- A filter takes its characters. -/
theorem filter?_takes {kind : Token → Lexeme}
    (h : filter? alphabet position cs = .ok (some (kind, behind))) :
    Takes cs behind ∧ ∃ f block, kind = filter f block := by
  obtain ⟨c, tail, f, value, rest, rfl, hrest, hvalue, rfl⟩ := filter?_eq_found h
  exact ⟨(Takes.cons c tail).trans ((filterValue_suffix hvalue).trans hrest), _, _, rfl⟩

/-- A toggle takes its characters. -/
theorem toggle?_takes {kind : Token → Lexeme} (h : toggle? cs = some (kind, behind)) :
    Takes cs behind := by
  unfold toggle? at h
  split at h
  · dsimp only at h
    split at h
    · cases h
    · cases h
      exact (Takes.cons _ _).trans (List.dropWhile_suffix _)
  · cases h

/-- A comment takes its characters. -/
theorem comment?_takes {kind : Token → Lexeme} (h : comment? cs = some (kind, behind)) :
    Takes cs behind := by
  unfold comment? at h
  split at h
  · cases h
    exact (Takes.cons _ _).trans ((List.dropWhile_suffix _).trans (List.suffix_cons _ _))
  · cases h

/-- A word takes its characters. -/
theorem word?_takes {kind : Token → Lexeme}
    (h : word? position cs = .ok (some (kind, behind))) : Takes cs behind := by
  unfold word? at h
  split at h
  next exact body hstart =>
  have hbody : body <:+ cs ∧ (exact = true → Takes cs body) := by
    split at hstart
    · cases hstart
      exact ⟨List.suffix_cons _ _, fun _ => .cons _ _⟩
    · cases hstart
      exact ⟨List.suffix_refl _, fun h => by cases h⟩
  split at h
  · split at h
    · next hquote =>
        cases h
        have htakes := (Takes.cons '"' _).trans (splitAtQuote?_suffix hquote)
        exact htakes.of_suffix hbody.1
    · cases h
  · dsimp only at h
    split at h
    · next hword =>
        cases h
        have htakes : Takes body (body.dropWhile isWordChar) := by
          refine .dropWhile fun hnil => ?_
          simp [hnil] at hword
        exact htakes.of_suffix hbody.1
    · split at h
      · next hexact =>
          cases h
          exact (hbody.2 hexact).trans (List.dropWhile_suffix _)
      · cases h

/-- The rules in their order: each finds a lexeme if none before it does. -/
inductive Finds (alphabet : List String) (position : Nat) (cs : List Char) :
    Lexeme → List Char → Prop where
  | combinator {kind : Token → Lexeme} {behind : List Char}
      (h : combinator? cs = some (kind, behind)) :
      Finds alphabet position cs (kind (tokenBefore position cs behind)) behind
  | nested {block : NestedBlock} {behind : List Char} (hcombinator : combinator? cs = none)
      (h : block? position cs = .ok (some (block, behind))) :
      Finds alphabet position cs (nested block) behind
  | filter {kind : Token → Lexeme} {behind : List Char} (hcombinator : combinator? cs = none)
      (hblock : block? position cs = .ok none)
      (h : filter? alphabet position cs = .ok (some (kind, behind))) :
      Finds alphabet position cs (kind (tokenBefore position cs behind)) behind
  | toggle {kind : Token → Lexeme} {behind : List Char} (hcombinator : combinator? cs = none)
      (hblock : block? position cs = .ok none) (hfilter : filter? alphabet position cs = .ok none)
      (h : toggle? cs = some (kind, behind)) :
      Finds alphabet position cs (kind (tokenBefore position cs behind)) behind
  | comment {kind : Token → Lexeme} {behind : List Char} (hcombinator : combinator? cs = none)
      (hblock : block? position cs = .ok none) (hfilter : filter? alphabet position cs = .ok none)
      (htoggle : toggle? cs = none) (h : comment? cs = some (kind, behind)) :
      Finds alphabet position cs (kind (tokenBefore position cs behind)) behind
  | word {kind : Token → Lexeme} {behind : List Char} (hcombinator : combinator? cs = none)
      (hblock : block? position cs = .ok none) (hfilter : filter? alphabet position cs = .ok none)
      (htoggle : toggle? cs = none) (hcomment : comment? cs = none)
      (h : word? position cs = .ok (some (kind, behind))) :
      Finds alphabet position cs (kind (tokenBefore position cs behind)) behind

/-- A rule fails, or finds nothing, or finds something with a rest. -/
theorem scanned_cases {β : Type} (found : Except QueryError (Scanned β)) :
    found = .ok none ∨ (∃ b behind, found = .ok (some (b, behind))) ∨ ∃ e, found = .error e := by
  match found with
  | .ok none => exact .inl rfl
  | .ok (some (b, behind)) => exact .inr (.inl ⟨b, behind, rfl⟩)
  | .error e => exact .inr (.inr ⟨e, rfl⟩)

/-- **A lexeme is found by one of the rules.** -/
theorem finds_of_single? {l : Lexeme}
    (h : single? alphabet position cs = .ok (some (l, behind))) :
    Finds alphabet position cs l behind := by
  unfold single? at h
  dsimp only at h
  obtain hcombinator | ⟨found, hcombinator⟩ := Option.eq_none_or_eq_some (combinator? cs)
  case inr =>
    rw [hcombinator] at h
    cases h
    exact .combinator hcombinator
  obtain hblock | ⟨block, rest, hblock⟩ | ⟨e, hblock⟩ := scanned_cases (block? position cs)
  case inr.inl =>
    rw [hcombinator, hblock] at h
    cases h
    exact .nested hcombinator hblock
  case inr.inr =>
    rw [hcombinator, hblock] at h
    cases h
  obtain hfilter | ⟨kind, rest, hfilter⟩ | ⟨e, hfilter⟩ :=
    scanned_cases (filter? alphabet position cs)
  case inr.inl =>
    rw [hcombinator, hblock, hfilter] at h
    cases h
    exact .filter hcombinator hblock hfilter
  case inr.inr =>
    rw [hcombinator, hblock, hfilter] at h
    cases h
  obtain htoggle | ⟨found, htoggle⟩ := Option.eq_none_or_eq_some (toggle? cs)
  case inr =>
    rw [hcombinator, hblock, hfilter, htoggle] at h
    cases h
    exact .toggle hcombinator hblock hfilter htoggle
  obtain hcomment | ⟨found, hcomment⟩ := Option.eq_none_or_eq_some (comment? cs)
  case inr =>
    rw [hcombinator, hblock, hfilter, htoggle, hcomment] at h
    cases h
    exact .comment hcombinator hblock hfilter htoggle hcomment
  obtain hword | ⟨kind, rest, hword⟩ | ⟨e, hword⟩ := scanned_cases (word? position cs)
  case inr.inl =>
    rw [hcombinator, hblock, hfilter, htoggle, hcomment, hword] at h
    cases h
    exact .word hcombinator hblock hfilter htoggle hcomment hword
  case inr.inr =>
    rw [hcombinator, hblock, hfilter, htoggle, hcomment, hword] at h
    cases h
  rw [hcombinator, hblock, hfilter, htoggle, hcomment, hword] at h
  cases h

namespace Finds

variable {l : Lexeme}

/-- The rules find what the first of them does that finds anything. -/
theorem single? (h : Finds alphabet position cs l behind) :
    single? alphabet position cs = .ok (some (l, behind)) := by
  cases h with
  | combinator h =>
      simp only [Lexeme.single?, h]
      rfl
  | nested hcombinator h =>
      simp only [Lexeme.single?, hcombinator, bind, Except.bind, h]
      rfl
  | filter hcombinator hblock h =>
      simp only [Lexeme.single?, hcombinator, bind, Except.bind, hblock, h]
      rfl
  | toggle hcombinator hblock hfilter h =>
      simp only [Lexeme.single?, hcombinator, bind, Except.bind, hblock, hfilter, h]
      rfl
  | comment hcombinator hblock hfilter htoggle h =>
      simp only [Lexeme.single?, hcombinator, bind, Except.bind, hblock, hfilter, htoggle, h]
      rfl
  | word hcombinator hblock hfilter htoggle hcomment h =>
      simp only [Lexeme.single?, hcombinator, bind, Except.bind, hblock, hfilter, htoggle,
        hcomment, h]
      rfl

/-- What is found takes its characters. -/
theorem takes (h : Finds alphabet position cs l behind) : Takes cs behind := by
  cases h with
  | combinator h => exact combinator?_takes h
  | nested _ h => exact (block?_takes h).1
  | filter _ _ h => exact (filter?_takes h).1
  | toggle _ _ _ h => exact toggle?_takes h
  | comment _ _ _ _ h => exact comment?_takes h
  | word _ _ _ _ _ h => exact word?_takes h

/-- The token of a lexeme that a rule finds is what it has taken. -/
theorem token_eq (h : Finds alphabet position cs l behind) :
    l.token = tokenBefore position cs behind := by
  cases h with
  | combinator h => rcases combinator?_kind h with rfl | rfl | rfl <;> rfl
  | nested _ h => exact (block?_takes h).2
  | filter _ _ h =>
      obtain ⟨f, block, rfl⟩ := (filter?_takes h).2
      rfl
  | toggle _ _ _ h =>
      obtain ⟨name, rfl⟩ := toggle?_kind h
      rfl
  | comment _ _ _ _ h =>
      obtain ⟨text, rfl⟩ := comment?_kind h
      rfl
  | word _ _ _ _ _ h =>
      obtain ⟨w, rfl⟩ := word?_kind h
      rfl

/-- No rule for single lexemes finds a group. -/
theorem ne_group (h : Finds alphabet position cs l behind) (inner : List Lexeme) (token : Token) :
    l ≠ .group inner token := by
  intro hgroup
  cases h with
  | combinator h => rcases combinator?_kind h with rfl | rfl | rfl <;> cases hgroup
  | nested _ h => cases hgroup
  | filter _ _ h =>
      obtain ⟨f, block, rfl⟩ := (filter?_takes h).2
      cases hgroup
  | toggle _ _ _ h =>
      obtain ⟨name, rfl⟩ := toggle?_kind h
      cases hgroup
  | comment _ _ _ _ h =>
      obtain ⟨text, rfl⟩ := comment?_kind h
      cases hgroup
  | word _ _ _ _ _ h =>
      obtain ⟨w, rfl⟩ := word?_kind h
      cases hgroup

/-- The characters that a rule has taken are those of the token. -/
theorem exists_piece (h : Finds alphabet position cs l behind) :
    ∃ piece, piece ≠ [] ∧ cs = piece ++ behind ∧ l.token = Token.ofChars position piece := by
  obtain ⟨piece, hne, rfl⟩ := h.takes.exists_piece
  exact ⟨piece, hne, rfl, h.token_eq.trans (tokenBefore_append _ _ _)⟩

end Finds

/-- The lexeme of a group, if there is anything in it. -/
def grouped (inner : List Lexeme) (token : Token) : List Lexeme :=
  if inner.isEmpty then [] else [.group inner token]

/-- The lexemes of characters from a place on. -/
inductive Scans (alphabet : List String) : Nat → List Char → List Lexeme → Prop where
  | nil (position : Nat) : Scans alphabet position [] []
  | blank {position : Nat} {c : Char} {cs : List Char} {ls : List Lexeme} (hc : isBlank c = true)
      (hrest : Scans alphabet (position + c.utf8Size) cs ls) : Scans alphabet position (c :: cs) ls
  | group {position : Nat} {inside behind : List Char} {inner ls : List Lexeme}
      (hdelimited :
        delimited? position ('(' :: (inside ++ ')' :: behind)) = .ok (some (inside, behind)))
      (hinner : Scans alphabet (position + 1) inside inner)
      (hrest : Scans alphabet (position + byteLength ('(' :: inside ++ [')'])) behind ls) :
      Scans alphabet position ('(' :: (inside ++ ')' :: behind))
        (grouped inner (Token.ofChars position ('(' :: inside ++ [')'])) ++ ls)
  | single {position : Nat} {c : Char} {cs behind : List Char} {l : Lexeme} {ls : List Lexeme}
      (hc : isBlank c = false ∧ c ≠ '(' ∧ c ≠ ')')
      (hfinds : Finds alphabet position (c :: cs) l behind)
      (hrest : Scans alphabet l.token.stop behind ls) : Scans alphabet position (c :: cs) (l :: ls)

/-- The characters of a group stand in front of those behind it. -/
theorem group_append (inside behind : List Char) :
    '(' :: (inside ++ ')' :: behind) = '(' :: inside ++ [')'] ++ behind := by
  simp

/-- The bytes of a group and of what is behind it are those of both. -/
theorem byteLength_group (inside behind : List Char) :
    byteLength ('(' :: (inside ++ ')' :: behind)) =
      byteLength ('(' :: inside ++ [')']) + byteLength behind := by
  rw [group_append, Text.byteLength_append]

/-- The token of a group is made of its characters. -/
theorem tokenBefore_group (position : Nat) (inside behind : List Char) :
    tokenBefore position ('(' :: (inside ++ ')' :: behind)) behind =
      Token.ofChars position ('(' :: inside ++ [')']) := by
  rw [group_append, tokenBefore_append]

/-- A group is scanned inside, and then the rest behind it. -/
theorem scanFrom_open {fuel : Nat} {inside behind : List Char}
    (h : delimited? position ('(' :: cs) = .ok (some (inside, behind))) :
    scanFrom alphabet (fuel + 1) position ('(' :: cs) = (do
      let inner ← scanFrom alphabet fuel (position + 1) inside
      let rest ← scanFrom alphabet fuel (position + byteLength ('(' :: inside ++ [')'])) behind
      return grouped inner (Token.ofChars position ('(' :: inside ++ [')'])) ++ rest) := by
  obtain rfl := delimited?_parenthesis h
  rw [scanFrom, if_neg (by decide), if_neg (by decide), if_pos rfl, h]
  simp only [bind, Except.bind, tokenBefore_group]
  cases scanFrom alphabet fuel (position + 1) inside with
  | error e => rfl
  | ok inner =>
      cases inner with
      | nil => rfl
      | cons l inner => rfl

/-- A single lexeme is found, and then the rest is scanned behind it. -/
theorem scanFrom_finds {fuel : Nat} {c : Char} {l : Lexeme}
    (hc : isBlank c = false ∧ c ≠ '(' ∧ c ≠ ')') (h : Finds alphabet position (c :: cs) l behind) :
    scanFrom alphabet (fuel + 1) position (c :: cs) = (do
      let rest ← scanFrom alphabet fuel l.token.stop behind
      return l :: rest) := by
  obtain ⟨hblank, hopen, hclose⟩ := hc
  rw [scanFrom, if_neg (by simp [hblank]), if_neg hclose, if_neg hopen, h.single?]
  rfl

/-- Work after work succeeds exactly if both do. -/
theorem bind_eq_ok {β γ : Type} {x : Except QueryError β} {f : β → Except QueryError γ} {r : γ} :
    (x >>= f) = .ok r ↔ ∃ b, x = .ok b ∧ f b = .ok r := by
  cases x with
  | error e => simp [bind, Except.bind]
  | ok b => simp [bind, Except.bind]

/-- **A scan that succeeds is a derivation.** -/
theorem scans_of_scanFrom {fuel : Nat} {ls : List Lexeme} (hfuel : cs.length ≤ fuel)
    (h : scanFrom alphabet fuel position cs = .ok ls) : Scans alphabet position cs ls := by
  induction fuel generalizing position cs ls with
  | zero =>
      obtain rfl := List.length_eq_zero_iff.mp (Nat.le_zero.mp hfuel)
      cases h
      exact .nil position
  | succ fuel ih =>
      cases cs with
      | nil =>
          cases h
          exact .nil position
      | cons c tail =>
          have htail : tail.length ≤ fuel := Nat.le_of_succ_le_succ hfuel
          by_cases hblank : isBlank c = true
          · rw [scanFrom_blank hblank] at h
            exact .blank hblank (ih htail h)
          by_cases hclose : c = ')'
          · rw [scanFrom, if_neg hblank, if_pos hclose] at h
            cases h
          by_cases hopen : c = '('
          · subst hopen
            obtain hnone | ⟨inside, behind, hfound⟩ | ⟨e, herror⟩ :=
              scanned_cases (delimited? position ('(' :: tail))
            · rw [scanFrom, if_neg hblank, if_neg hclose, if_pos rfl, hnone] at h
              cases h
            · rw [scanFrom_open hfound] at h
              obtain ⟨inner, hinner, h⟩ := bind_eq_ok.mp h
              obtain ⟨rest, hrest, h⟩ := bind_eq_ok.mp h
              cases h
              obtain rfl := delimited?_parenthesis hfound
              rw [List.length_append, List.length_cons] at htail
              exact .group hfound (ih (by omega) hinner) (ih (by omega) hrest)
            · rw [scanFrom, if_neg hblank, if_neg hclose, if_pos rfl, herror] at h
              cases h
          · obtain hnone | ⟨l, behind, hfound⟩ | ⟨e, herror⟩ :=
              scanned_cases (single? alphabet position (c :: tail))
            · rw [scanFrom, if_neg hblank, if_neg hclose, if_neg hopen, hnone] at h
              cases h
            · have hc : isBlank c = false ∧ c ≠ '(' ∧ c ≠ ')' :=
                ⟨eq_false_of_ne_true hblank, hopen, hclose⟩
              have hfinds := finds_of_single? hfound
              rw [scanFrom_finds hc hfinds] at h
              obtain ⟨rest, hrest, h⟩ := bind_eq_ok.mp h
              cases h
              have hshorter := hfinds.takes.shorter
              rw [List.length_cons] at hshorter
              exact .single hc hfinds (ih (by omega) hrest)
            · rw [scanFrom, if_neg hblank, if_neg hclose, if_neg hopen, herror] at h
              cases h

/-- **A derivation gives the lexemes that are scanned.** -/
theorem Scans.scanFrom_eq {ls : List Lexeme} (h : Scans alphabet position cs ls) {fuel : Nat}
    (hfuel : cs.length ≤ fuel) : scanFrom alphabet fuel position cs = .ok ls := by
  induction h generalizing fuel with
  | nil position => exact scanFrom_nil fuel position
  | blank hc _ ih =>
      obtain ⟨fuel, rfl⟩ := Nat.exists_eq_add_one.mpr (Nat.lt_of_lt_of_le (Nat.succ_pos _) hfuel)
      rw [scanFrom_blank hc]
      exact ih (Nat.le_of_succ_le_succ hfuel)
  | group hdelimited _ _ ihinner ihrest =>
      obtain ⟨fuel, rfl⟩ := Nat.exists_eq_add_one.mpr (Nat.lt_of_lt_of_le (Nat.succ_pos _) hfuel)
      simp only [List.length_cons, List.length_append] at hfuel
      rw [scanFrom_open hdelimited, ihinner (by omega), ihrest (by omega)]
      rfl
  | single hc hfinds _ ih =>
      obtain ⟨fuel, rfl⟩ := Nat.exists_eq_add_one.mpr (Nat.lt_of_lt_of_le (Nat.succ_pos _) hfuel)
      have hshorter := hfinds.takes.shorter
      rw [scanFrom_finds hc hfinds, ih (by omega)]
      rfl

/-- Fuel beyond the number of characters changes nothing. -/
theorem scanFrom_congr {fuel fuel' : Nat} (h : cs.length ≤ fuel) (h' : cs.length ≤ fuel') :
    scanFrom alphabet fuel position cs = scanFrom alphabet fuel' position cs := by
  induction fuel generalizing fuel' position cs with
  | zero =>
      obtain rfl := List.length_eq_zero_iff.mp (Nat.le_zero.mp h)
      rw [scanFrom_nil, scanFrom_nil]
  | succ fuel ih =>
      cases cs with
      | nil => rw [scanFrom_nil, scanFrom_nil]
      | cons c tail =>
          obtain ⟨fuel', rfl⟩ := Nat.exists_eq_add_one.mpr (Nat.lt_of_lt_of_le (Nat.succ_pos _) h')
          have htail : tail.length ≤ fuel := Nat.le_of_succ_le_succ h
          have htail' : tail.length ≤ fuel' := Nat.le_of_succ_le_succ h'
          by_cases hblank : isBlank c = true
          · rw [scanFrom_blank hblank, scanFrom_blank hblank]
            exact ih htail htail'
          by_cases hclose : c = ')'
          · rw [scanFrom, scanFrom, if_neg hblank, if_neg hblank, if_pos hclose, if_pos hclose]
          by_cases hopen : c = '('
          · subst hopen
            obtain hnone | ⟨inside, behind, hfound⟩ | ⟨e, herror⟩ :=
              scanned_cases (delimited? position ('(' :: tail))
            · rw [scanFrom, scanFrom, if_neg hblank, if_neg hblank, if_neg hclose, if_neg hclose,
                if_pos rfl, if_pos rfl, hnone]
              rfl
            · obtain rfl := delimited?_parenthesis hfound
              rw [List.length_append, List.length_cons] at htail htail'
              have hinside : ∀ position, scanFrom alphabet fuel position inside =
                  scanFrom alphabet fuel' position inside := fun _ => ih (by omega) (by omega)
              have hbehind : ∀ position, scanFrom alphabet fuel position behind =
                  scanFrom alphabet fuel' position behind := fun _ => ih (by omega) (by omega)
              rw [scanFrom_open hfound, scanFrom_open hfound, hinside, hbehind]
            · rw [scanFrom, scanFrom, if_neg hblank, if_neg hblank, if_neg hclose, if_neg hclose,
                if_pos rfl, if_pos rfl, herror]
              rfl
          · obtain hnone | ⟨l, behind, hfound⟩ | ⟨e, herror⟩ :=
              scanned_cases (single? alphabet position (c :: tail))
            · rw [scanFrom, scanFrom, if_neg hblank, if_neg hblank, if_neg hclose, if_neg hclose,
                if_neg hopen, if_neg hopen, hnone]
              rfl
            · have hfinds := finds_of_single? hfound
              have hshorter := hfinds.takes.shorter
              have hc : isBlank c = false ∧ c ≠ '(' ∧ c ≠ ')' :=
                ⟨eq_false_of_ne_true hblank, hopen, hclose⟩
              rw [List.length_cons] at hshorter
              have hbehind : ∀ position, scanFrom alphabet fuel position behind =
                  scanFrom alphabet fuel' position behind := fun _ => ih (by omega) (by omega)
              rw [scanFrom_finds hc hfinds, scanFrom_finds hc hfinds, hbehind]
            · rw [scanFrom, scanFrom, if_neg hblank, if_neg hblank, if_neg hclose, if_neg hclose,
                if_neg hopen, if_neg hopen, herror]
              rfl

/-- A text that is scanned has these lexemes. -/
theorem scans_of_scan {text : String} {ls : List Lexeme} (h : scan alphabet text = .ok ls) :
    Scans alphabet 0 text.toList ls :=
  scans_of_scanFrom (Nat.le_succ _) h

end Lexeme

end FilterQuery
