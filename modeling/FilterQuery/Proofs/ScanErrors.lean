import FilterQuery.Proofs.PairedText

/-!
# Where scanning fails

Each rule of the scanner fails at a delimiter of the text that it reads: at a
parenthesis or a brace without its counterpart, or at a quote that nothing
closes, and then the rest of the text is what the error is about.  No rule fits
a brace that closes nothing, and that is the only character that none fits.  So
text without parentheses, braces and quotes always has lexemes.
-/

namespace FilterQuery

open Text (byteLength isBlank)

namespace Text

/-- The bytes of the range are whole characters of the text. -/
def IsSpan (cs : List Char) (index length : Nat) : Prop :=
  ∃ before piece after, cs = before ++ piece ++ after ∧ byteLength before = index ∧
    byteLength piece = length

/-- A span ends within the text. -/
theorem IsSpan.stop_le {cs : List Char} {index length : Nat} (h : IsSpan cs index length) :
    index + length ≤ byteLength cs := by
  obtain ⟨before, piece, after, rfl, rfl, rfl⟩ := h
  rw [byteLength_append, byteLength_append]
  exact Nat.le_add_right _ _

end Text

/-- The error is about a brace that closes nothing, or about text from another
delimiter on, among the characters from a place on. -/
inductive QueryError.IsAtDelimiter (position : Nat) (cs : List Char) (e : QueryError) : Prop where
  | brace (before after : List Char) (text : cs = before ++ '\x7d' :: after)
      (index : e.index = position + byteLength before) (length : e.length = 1)
      (kind : e.kind = .lexical)
  | delimiter (before piece after : List Char) {c : Char}
      (text : cs = before ++ (c :: piece ++ after)) (delimiter : c ∈ ['(', ')', '\x7b', '"'])
      (index : e.index = position + byteLength before) (length : e.length = byteLength (c :: piece))
      (kind : e.kind = .syntactic)

namespace QueryError.IsAtDelimiter

variable {position : Nat} {cs : List Char} {e : QueryError}

/-- The place is that of the text around the characters. -/
theorem within {start : Nat} {front : List Char} (h : e.IsAtDelimiter position cs)
    (hposition : position = start + byteLength front) (behind : List Char) :
    e.IsAtDelimiter start (front ++ cs ++ behind) := by
  cases h with
  | brace before after text index length kind =>
      refine .brace (front ++ before) (after ++ behind) ?_ ?_ length kind
      · rw [text]
        simp
      · rw [index, hposition, Text.byteLength_append, Nat.add_assoc]
  | delimiter before piece after text delimiter index length kind =>
      refine .delimiter (front ++ before) piece (after ++ behind) ?_ delimiter ?_ length kind
      · rw [text]
        simp
      · rw [index, hposition, Text.byteLength_append, Nat.add_assoc]

/-- An error at a delimiter is about a piece of the text. -/
theorem isSpan (h : e.IsAtDelimiter 0 cs) : Text.IsSpan cs e.index e.length := by
  cases h with
  | brace before after text index length _ =>
      refine ⟨before, ['\x7d'], after, by rw [text]; simp, ?_, ?_⟩
      · rw [index, Nat.zero_add]
      · rw [length]
        rfl
  | delimiter before piece after text _ index length _ =>
      refine ⟨before, _ :: piece, after, by rw [text]; simp, ?_, length.symm⟩
      rw [index, Nat.zero_add]

/-- An error at a delimiter needs a delimiter. -/
theorem exists_delimiter (h : e.IsAtDelimiter position cs) :
    ∃ c ∈ cs, c ∈ ['(', ')', '\x7b', '\x7d', '"'] := by
  cases h with
  | brace before after text _ _ _ => exact ⟨'\x7d', by simp [text], by decide⟩
  | @delimiter before piece after c text delimiter _ _ _ =>
      refine ⟨c, by simp [text], ?_⟩
      simp only [List.mem_cons, List.not_mem_nil, or_false] at delimiter ⊢
      tauto

end QueryError.IsAtDelimiter

/-- If it fails, then at a delimiter. -/
def FailsAtDelimiter {β : Type} (position : Nat) (cs : List Char)
    (x : Except QueryError β) : Prop :=
  ∀ e, x = .error e → e.IsAtDelimiter position cs

namespace FailsAtDelimiter

variable {β γ : Type} {position : Nat} {cs : List Char} {x : Except QueryError β}

theorem ok (b : β) : FailsAtDelimiter position cs (.ok b) := fun _ h => by cases h

/-- The error is about the rest of the text. -/
theorem error_rest {cause : Cause} {c : Char} {rest : List Char}
    (hc : c ∈ ['(', ')', '\x7b', '"']) (hkind : cause.kind = .syntactic) :
    FailsAtDelimiter position (c :: rest)
      (.error ⟨cause, position, byteLength (c :: rest)⟩ : Except QueryError β) := by
  intro e he
  obtain rfl := Except.error.inj he
  exact .delimiter [] rest [] (by simp) hc rfl rfl hkind

/-- The error is about one delimiter. -/
theorem error_head {cause : Cause} {c : Char} {rest : List Char}
    (hc : c ∈ ['(', ')', '\x7b', '"']) (hkind : cause.kind = .syntactic) :
    FailsAtDelimiter position (c :: rest)
      (.error ⟨cause, position, 1⟩ : Except QueryError β) := by
  have hsize : ∀ d ∈ ['(', ')', '\x7b', '"'], byteLength [d] = 1 := by
    intro d hd
    fin_cases hd <;> rfl
  intro e he
  obtain rfl := Except.error.inj he
  exact .delimiter [] [] rest rfl hc rfl (hsize c hc).symm hkind

/-- Changing a result makes no failure. -/
theorem map (h : FailsAtDelimiter position cs x) (f : β → γ) :
    FailsAtDelimiter position cs (x.map f) := by
  cases x with
  | error e =>
      intro e' he'
      obtain rfl := Except.error.inj he'
      exact h e rfl
  | ok b => exact ok (f b)

/-- Work after work fails where the first or the second fails. -/
theorem bind {next : β → Except QueryError γ} (h : FailsAtDelimiter position cs x)
    (hnext : ∀ b, x = .ok b → FailsAtDelimiter position cs (next b)) :
    FailsAtDelimiter position cs (x >>= next) := by
  cases x with
  | error e =>
      intro e' he'
      obtain rfl := Except.error.inj he'
      exact h e rfl
  | ok b => exact hnext b rfl

/-- A failure among some characters is one among more of them. -/
theorem within {start : Nat} {front : List Char} (h : FailsAtDelimiter position cs x)
    (hposition : position = start + byteLength front) (behind : List Char) :
    FailsAtDelimiter start (front ++ cs ++ behind) x :=
  fun e he => (h e he).within hposition behind

/-- A failure in the rest of the characters is one among all. -/
theorem of_suffix {rest : List Char} (hsuffix : rest <:+ cs)
    (h : FailsAtDelimiter (position + (byteLength cs - byteLength rest)) rest x) :
    FailsAtDelimiter position cs x := by
  obtain ⟨front, rfl⟩ := hsuffix
  have hplace : position + (byteLength (front ++ rest) - byteLength rest) =
      position + byteLength front := by
    rw [Text.byteLength_append, Nat.add_sub_cancel]
  have hwithin := h.within hplace []
  rwa [List.append_nil] at hwithin

end FailsAtDelimiter

/-- What is open is reported from its delimiter on. -/
theorem closing_failsAtDelimiter (depth : Depth) (quoted : Bool) (position : Nat) (cs : List Char) :
    FailsAtDelimiter position cs (closing depth quoted position cs) := by
  induction cs generalizing depth quoted position with
  | nil => exact .ok _
  | cons c cs ih =>
      have hnext : ∀ depth quoted, FailsAtDelimiter position (c :: cs)
          (prepend [c] (closing depth quoted (position + c.utf8Size) cs)) := by
        intro depth quoted
        have hwithin : FailsAtDelimiter position ([c] ++ cs ++ [])
            (closing depth quoted (position + c.utf8Size) cs) := (ih _ _ _).within rfl []
        rw [List.append_nil] at hwithin
        exact hwithin.map _
      rw [closing_step]
      split
      · exact hnext _ _
      · split
        · next hquote =>
            split
            · exact hnext _ _
            · subst hquote
              exact .error_rest (by decide) rfl
        · split
          · exact .ok _
          · exact hnext _ _

/-- A delimiter that nothing closes is reported at its place. -/
theorem delimited?_failsAtDelimiter (position : Nat) (cs : List Char) :
    FailsAtDelimiter position cs (delimited? position cs) :=
  (closing_failsAtDelimiter {} false position cs).map _

namespace Lexeme

variable (position : Nat) (cs : List Char)

/-- A nested query fails at a delimiter. -/
theorem block?_failsAtDelimiter : FailsAtDelimiter position cs (block? position cs) := by
  unfold block?
  dsimp only
  split
  · next hbrace =>
      obtain ⟨rest, hrest⟩ := List.head?_eq_some_iff.mp hbrace
      have hcs := List.takeWhile_append_dropWhile (p := isAggregatorChar) (l := cs)
      have hinner : ∀ x : Except QueryError (Scanned NestedBlock),
          FailsAtDelimiter (position + byteLength (cs.takeWhile isAggregatorChar))
              ('\x7b' :: rest) x →
            FailsAtDelimiter position cs x := by
        intro x hx
        have hwithin := hx.within rfl []
        rwa [List.append_nil, ← hrest, hcs] at hwithin
      refine hinner _ ?_
      rw [hrest]
      refine (delimited?_failsAtDelimiter _ _).bind fun found _ => ?_
      cases found with
      | none => exact .error_head (by decide) rfl
      | some found => exact .ok _
  · exact .ok _

/-- A value fails at a delimiter. -/
theorem filterValue_failsAtDelimiter : FailsAtDelimiter position cs (filterValue position cs) := by
  unfold filterValue
  split
  · next rest =>
      split
      · exact .ok _
      · exact .error_rest (by decide) rfl
  · refine (block?_failsAtDelimiter _ _).bind fun found _ => ?_
    cases found with
    | none => exact .ok _
    | some found => exact .ok _

/-- The text of a filter's value is what is left behind its name, parameter and
operator. -/
theorem valueText_suffix {alphabet : List String} {c : Char} {tail rest valueText : List Char}
    {param : Option String} {operator : String}
    (hparameter : parameter? (tail.dropWhile isNameChar) = some (param, rest))
    (hoperator : operator? alphabet rest = some (operator, valueText)) :
    valueText <:+ c :: tail := by
  have hrest : valueText <:+ rest := by
    rw [(operator?_eq_some hoperator).2]
    exact List.suffix_append _ _
  exact ((hrest.trans (parameter?_suffix hparameter)).trans (List.dropWhile_suffix _)).trans
    (List.suffix_cons _ _)

/-- A filter fails at a delimiter. -/
theorem filter?_failsAtDelimiter (alphabet : List String) :
    FailsAtDelimiter position cs (filter? alphabet position cs) := by
  unfold filter?
  split
  · exact .ok _
  · next c tail =>
      split
      · exact .ok _
      · dsimp only
        split
        · exact .ok _
        · next param rest hparameter =>
            split
            · exact .ok _
            · next operator rest' hoperator =>
                have hsuffix : rest' <:+ c :: tail := valueText_suffix hparameter hoperator
                refine .bind (.of_suffix hsuffix (filterValue_failsAtDelimiter _ _))
                  fun found _ => ?_
                exact .ok _

/-- A word fails at a delimiter. -/
theorem word?_failsAtDelimiter : FailsAtDelimiter position cs (word? position cs) := by
  unfold word?
  split
  next exact body hstart =>
  have hbody : body <:+ cs := by
    split at hstart
    · cases hstart
      exact List.suffix_cons _ _
    · cases hstart
      exact List.suffix_refl _
  split
  · next rest =>
      split
      · exact .ok _
      · exact .of_suffix hbody (.error_rest (by decide) rfl)
  · dsimp only
    split
    · exact .ok _
    · split
      · exact .ok _
      · exact .ok _

/-- A single lexeme fails at a delimiter. -/
theorem single?_failsAtDelimiter (alphabet : List String) :
    FailsAtDelimiter position cs (single? alphabet position cs) := by
  unfold single?
  dsimp only
  split
  · exact .ok _
  · refine (block?_failsAtDelimiter _ _).bind fun block _ => ?_
    cases block with
    | some block => exact .ok _
    | none =>
        refine (filter?_failsAtDelimiter _ _ _).bind fun filter _ => ?_
        cases filter with
        | some filter => exact .ok _
        | none =>
            dsimp only
            split
            · exact .ok _
            · split
              · exact .ok _
              · refine (word?_failsAtDelimiter _ _).bind fun word _ => ?_
                cases word with
                | none => exact .ok _
                | some word => exact .ok _

variable {position cs}

/-- What begins with a brace is a nested query, or fails. -/
theorem block?_ne_none_of_brace (tail : List Char) :
    block? position ('\x7b' :: tail) ≠ .ok none := by
  have htake : ('\x7b' :: tail).takeWhile isAggregatorChar = [] :=
    List.takeWhile_cons_of_neg (by decide +kernel)
  have hdrop : ('\x7b' :: tail).dropWhile isAggregatorChar = '\x7b' :: tail :=
    List.dropWhile_cons_of_neg (by decide +kernel)
  intro h
  rw [block?, htake, hdrop] at h
  dsimp only at h
  rw [if_pos (List.head?_cons ..)] at h
  obtain ⟨found, -, h⟩ := bind_eq_ok.mp h
  cases found with
  | none => cases h
  | some found => cases h

/-- Only a blank or a delimiter begins neither a word nor a phrase. -/
theorem word?_eq_none (h : word? position cs = .ok none) :
    cs.takeWhile isWordChar = [] ∧ cs.head? ≠ some '"' := by
  unfold word? at h
  split at h
  next exact body hstart =>
  split at h
  · split at h
    · cases h
    · cases h
  · next hquote =>
      dsimp only at h
      split at h
      · cases h
      · next hempty =>
          split at h
          · cases h
          · next hexact =>
              -- Without a mark the body is all of the text.
              split at hstart
              · cases hstart
                exact absurd rfl hexact
              · cases hstart
                refine ⟨by simpa using hempty, fun hhead => ?_⟩
                obtain ⟨rest, hrest⟩ := List.head?_eq_some_iff.mp hhead
                exact hquote rest hrest

/-- If no rule fits then none for blocks does, and none for words. -/
theorem rules_of_single?_none {alphabet : List String}
    (h : single? alphabet position cs = .ok none) :
    block? position cs = .ok none ∧ word? position cs = .ok none := by
  unfold single? at h
  dsimp only at h
  split at h
  · cases h
  · obtain ⟨block, hblock, h⟩ := bind_eq_ok.mp h
    cases block with
    | some block => cases h
    | none =>
        obtain ⟨filter, -, h⟩ := bind_eq_ok.mp h
        cases filter with
        | some filter => cases h
        | none =>
            dsimp only at h
            split at h
            · cases h
            · split at h
              · cases h
              · obtain ⟨word, hword, h⟩ := bind_eq_ok.mp h
                cases word with
                | some word => cases h
                | none => exact ⟨hblock, hword⟩

/-- **Every character that begins no lexeme but is not blank closes a brace that
is not open.** -/
theorem eq_brace_of_single?_none {alphabet : List String} {c : Char} {tail : List Char}
    (hc : isBlank c = false ∧ c ≠ '(' ∧ c ≠ ')')
    (h : single? alphabet position (c :: tail) = .ok none) : c = '\x7d' := by
  obtain ⟨hblock, hword⟩ := rules_of_single?_none h
  obtain ⟨htake, hquote⟩ := word?_eq_none hword
  have hbrace : c ≠ '\x7b' := by
    rintro rfl
    exact block?_ne_none_of_brace tail hblock
  have hnoword : isWordChar c = false := by
    by_contra hword
    rw [List.takeWhile_cons_of_pos (by simpa using hword)] at htake
    cases htake
  rw [List.head?_cons, ne_eq, Option.some_inj] at hquote
  simpa [isWordChar, hc, hquote, hbrace] using hnoword

/-- **A text fails to be scanned at a delimiter.** -/
theorem scanFrom_failsAtDelimiter (alphabet : List String) (fuel position : Nat) (cs : List Char) :
    FailsAtDelimiter position cs (scanFrom alphabet fuel position cs) := by
  induction fuel generalizing position cs with
  | zero => exact .ok _
  | succ fuel ih =>
      cases cs with
      | nil => exact .ok _
      | cons c tail =>
          -- What fails further on fails in the text from here on.
          have hlater : ∀ (front rest : List Char), c :: tail = front ++ rest →
              FailsAtDelimiter position (c :: tail)
                (scanFrom alphabet fuel (position + byteLength front) rest) := by
            intro front rest heq
            have hwithin := (ih (position + byteLength front) rest).within rfl []
            rwa [List.append_nil, ← heq] at hwithin
          rw [scanFrom]
          split
          · exact hlater [c] tail rfl
          · split
            · next hclose =>
                subst hclose
                exact .error_head (by decide) rfl
            · split
              · next hopen =>
                  subst hopen
                  refine (delimited?_failsAtDelimiter _ _).bind fun found hfound => ?_
                  cases found with
                  | none => exact .error_head (by decide) rfl
                  | some found =>
                      obtain ⟨inside, behind⟩ := found
                      obtain rfl := delimited?_parenthesis hfound
                      have hinner := (ih (position + byteLength ['(']) inside).within rfl
                        (')' :: behind)
                      refine hinner.bind fun inner _ => ?_
                      dsimp only
                      rw [tokenBefore_group]
                      have hbehind := hlater ('(' :: inside ++ [')']) behind (by simp)
                      refine hbehind.bind fun rest _ => ?_
                      split
                      · exact .ok _
                      · exact .ok _
              · next hblank hclose hopen =>
                  have hc : isBlank c = false ∧ c ≠ '(' ∧ c ≠ ')' :=
                    ⟨eq_false_of_ne_true hblank, hopen, hclose⟩
                  refine (single?_failsAtDelimiter _ _ _).bind fun found hfound => ?_
                  cases found with
                  | none =>
                      obtain rfl := eq_brace_of_single?_none hc hfound
                      intro e he
                      obtain rfl := Except.error.inj he
                      exact .brace [] tail rfl rfl rfl rfl
                  | some found =>
                      obtain ⟨l, behind⟩ := found
                      obtain ⟨piece, -, hpiece, htoken⟩ :=
                        (finds_of_single? hfound).exists_piece
                      dsimp only
                      rw [htoken]
                      exact (hlater piece behind hpiece).bind fun rest _ => .ok _

/-- **Scanning fails at a delimiter.** -/
theorem scan_failsAtDelimiter {alphabet : List String} {text : String} {e : QueryError}
    (h : scan alphabet text = .error e) : e.IsAtDelimiter 0 text.toList :=
  scanFrom_failsAtDelimiter alphabet _ 0 text.toList e h

/-- **Text without parentheses, braces and quotes has lexemes.** -/
theorem exists_scan (alphabet : List String) {text : String}
    (h : ∀ c ∈ text.toList, c ∉ ['(', ')', '\x7b', '\x7d', '"']) :
    ∃ ls, scan alphabet text = .ok ls := by
  cases hscan : scan alphabet text with
  | ok ls => exact ⟨ls, rfl⟩
  | error e =>
      obtain ⟨c, hc, hdelimiter⟩ := (scan_failsAtDelimiter hscan).exists_delimiter
      exact absurd hdelimiter (h c hc)

end Lexeme

end FilterQuery
