import FilterQuery.Proofs.ScanSteps

/-!
# Lexemes at any depth

A lexeme may stand in groups within groups.  Wherever it stands, a rule of the
scanner has found it in the characters from its place on up to the end of the
text or to the parenthesis that closes the innermost group around it.  Of a
filter the rule has read a name, perhaps a parameter, an operator and a value,
one right behind the other.
-/

namespace FilterQuery

open Text (byteLength isBlank)

namespace Lexeme

variable {alphabet : List String} {position : Nat} {cs behind : List Char} {ls : List Lexeme}
  {l : Lexeme}

/-- The lexeme stands among the lexemes, or in a group among them. -/
inductive Occurs (l : Lexeme) : List Lexeme → Prop where
  | here (ls : List Lexeme) : Occurs l (l :: ls)
  | later (m : Lexeme) {ls : List Lexeme} (h : Occurs l ls) : Occurs l (m :: ls)
  | inside {inner : List Lexeme} (token : Token) (ls : List Lexeme) (h : Occurs l inner) :
      Occurs l (.group inner token :: ls)

/-- What occurs in lexemes in a row occurs in one part or in the other. -/
theorem occurs_append {ms : List Lexeme} (h : Occurs l (ls ++ ms)) :
    Occurs l ls ∨ Occurs l ms := by
  induction ls with
  | nil => exact .inr h
  | cons m ls ih =>
      cases h with
      | here => exact .inl (.here ls)
      | later _ h => exact (ih h).imp_left (.later m)
      | inside token _ h => exact .inl (.inside token ls h)

/-- What occurs in a pair of parentheses, and is none, occurs between them. -/
theorem Occurs.of_grouped {inner : List Lexeme} {token : Token}
    (hsingle : ∀ inner token, l ≠ .group inner token) (h : Occurs l (grouped inner token)) :
    Occurs l inner := by
  unfold grouped at h
  split at h
  · cases h
  · cases h with
    | here => exact absurd rfl (hsingle inner token)
    | later _ h => cases h
    | inside _ _ h => exact h

/-- **A lexeme at any depth has been found by a rule**, in characters that end
where the text or the group around it does. -/
theorem Scans.finds_of_occurs (hsingle : ∀ inner token, l ≠ .group inner token)
    (h : Scans alphabet position cs ls) (hl : Occurs l ls) (before after : List Char)
    (hposition : position = byteLength before) (hafter : Ends ')' after) :
    ∃ front range behind rest, before ++ cs ++ after = front ++ range ++ rest ∧
      Finds alphabet (byteLength front) range l behind ∧ Ends ')' rest := by
  -- What stands in front grows with each step, and a group is followed by what closes it.
  induction h generalizing before after with
  | nil position => cases hl
  | @blank _ c cs _ _ _ ih =>
      have hfound := ih hl (before ++ [c]) after (by simp [hposition, byteLength]) hafter
      rwa [List.append_assoc before, List.singleton_append] at hfound
  | @group _ inside behind inner ls _ _ _ ihinner ihrest =>
      rcases occurs_append hl with hinner | hrest
      · have hfound := ihinner (hinner.of_grouped hsingle) (before ++ ['('])
          (')' :: behind ++ after) (by rw [hposition, Text.byteLength_append]; rfl) (.blank _)
        simpa using hfound
      · have hfound := ihrest hrest (before ++ ('(' :: inside ++ [')'])) after
          (by rw [hposition, ← Text.byteLength_append]) hafter
        simpa using hfound
  | @single _ c cs behind m ls _ hfinds _ ih =>
      cases hl with
      | here => exact ⟨before, c :: cs, behind, after, rfl, hposition ▸ hfinds, hafter⟩
      | later _ hl =>
          obtain ⟨piece, -, hpiece, htoken⟩ := hfinds.exists_piece
          have hstop : m.token.stop = byteLength (before ++ piece) := by
            rw [htoken, Text.byteLength_append, ← hposition]
            rfl
          have hfound := ih hl (before ++ piece) after hstop hafter
          rwa [hpiece, ← List.append_assoc before]
      | inside token _ _ => exact absurd rfl (hfinds.ne_group _ token)

/-- **What occurs among the lexemes of a text is read at its place there**, in
front of what may follow a lexeme. -/
theorem finds_of_scan {text : String} (hscan : scan alphabet text = .ok ls)
    (hsingle : ∀ inner token, l ≠ .group inner token) (hl : Occurs l ls) :
    ∃ front range behind rest, text.toList = front ++ range ++ rest ∧
      Finds alphabet (byteLength front) range l behind ∧ Ends ')' rest := by
  have hfound := (scans_of_scan hscan).finds_of_occurs hsingle hl [] [] rfl .nothing
  simpa using hfound

/-- A name as the scanner reads it. -/
def IsName (name : List Char) : Prop :=
  ∃ c tail, name = c :: tail ∧ isNameStart c = true ∧ ∀ d ∈ tail, isNameChar d = true

/-- The name and the parameter of a filter as they stand in a text. -/
inductive IsHead (f : FilterExpression) : List Char → Prop where
  | name (hparam : f.param = none) : IsHead f f.name.toList
  | parameter {inside : List Char} (hparam : f.param = some (String.ofList (Text.trimChars inside)))
      (hinside : ∀ c ∈ inside, c ≠ '(' ∧ c ≠ ')') :
      IsHead f (f.name.toList ++ '(' :: inside ++ [')'])

/-- What the scanner has read as a filter: a head, an operator and a value. -/
structure IsFilter (alphabet : List String) (cs behind : List Char) (f : FilterExpression)
    (value : FilterValue) (head rest : List Char) : Prop where
  text : cs = head ++ rest
  name : IsName f.name.toList
  head : IsHead f head
  /-- The name ends where it has to. -/
  ended : f.param = none → ∀ c more, rest = c :: more → isNameChar c = false ∧ c ≠ '('
  operator : ∃ place valueText, operator? alphabet rest = some (f.operator, valueText) ∧
    filterValue place valueText = .ok (value, behind)
  value : f.value = value.text ∧ f.quoted = value.quoted

/-- A parameter is text without parentheses in a pair of them, or nothing. -/
theorem parameter?_cases {param : Option String} (h : parameter? cs = some (param, behind)) :
    (param = none ∧ cs = behind ∧ ∀ more, cs ≠ '(' :: more) ∨
      ∃ inside, param = some (String.ofList (Text.trimChars inside)) ∧
        cs = '(' :: inside ++ [')'] ++ behind ∧ ∀ c ∈ inside, c ≠ '(' ∧ c ≠ ')' := by
  unfold parameter? at h
  split at h
  · next rest =>
      dsimp only at h
      split at h
      · next hclosing =>
          cases h
          refine .inr ⟨_, rfl, ?_, fun c hc => ?_⟩
          · have htext := List.takeWhile_append_dropWhile
              (p := fun c => !(decide (c = '(') || decide (c = ')'))) (l := rest)
            rw [hclosing] at htext
            exact (congrArg ('(' :: ·) htext.symm).trans (by simp)
          · simpa [not_or] using List.mem_takeWhile_imp hc
      · cases h
  · next hopen =>
      cases h
      exact .inl ⟨rfl, rfl, fun more heq => hopen more heq⟩

/-- A run of characters ends where one is of another sort. -/
theorem head_dropWhile {p : Char → Bool} {c : Char} {more : List Char}
    (h : cs.dropWhile p = c :: more) : p c = false := by
  have hhead := List.head?_dropWhile_not p cs
  rw [h] at hhead
  simpa using hhead

/-- **A filter is a head, an operator and a value**, one right behind the
other. -/
theorem filter?_isFilter {kind : Token → Lexeme}
    (h : filter? alphabet position cs = .ok (some (kind, behind))) :
    ∃ f value head rest, kind = filter f value.block ∧
      IsFilter alphabet cs behind f value head rest := by
  cases cs with
  | nil => cases h
  | cons c tail =>
      rw [filter?] at h
      split at h
      · cases h
      · next hstart =>
          dsimp only at h
          split at h
          · cases h
          · next param rest hparameter =>
              split at h
              · cases h
              · next operator valueText hoperator =>
                  obtain ⟨⟨value, behind⟩, hvalue, h⟩ := bind_eq_ok.mp h
                  cases h
                  have hname : IsName (String.ofList (c :: tail.takeWhile isNameChar)).toList := by
                    refine ⟨c, _, String.toList_ofList, by simpa using hstart, fun d hd => ?_⟩
                    exact List.mem_takeWhile_imp hd
                  have htext : c :: tail = (c :: tail.takeWhile isNameChar) ++
                      tail.dropWhile isNameChar := by
                    rw [List.cons_append, List.takeWhile_append_dropWhile]
                  -- What the name, the parameter and the operator leave is the text of the value.
                  have hplace : ∃ place valueText', operator? alphabet rest =
                      some (operator, valueText') ∧
                        filterValue place valueText' = .ok (value, behind) :=
                    ⟨_, _, hoperator, hvalue⟩
                  rcases parameter?_cases hparameter with
                    ⟨rfl, hrest, hopen⟩ | ⟨inside, rfl, hrest, hinside⟩
                  · refine ⟨_, value, _, rest, rfl, ?_, hname, .name rfl, ?_, hplace, rfl, rfl⟩
                    · rw [String.toList_ofList, htext, hrest]
                    · rintro - d more rfl
                      exact ⟨head_dropWhile hrest, fun hd => hopen more (by rw [hrest, hd])⟩
                  · refine ⟨_, value, _, rest, rfl, ?_, hname, .parameter rfl hinside, ?_,
                      hplace, rfl, rfl⟩
                    · rw [String.toList_ofList, htext, hrest]
                      simp
                    · intro hnone
                      cases hnone

/-- A filter that is found is read by its rule. -/
theorem Finds.isFilter {f : FilterExpression} {block : Option NestedBlock} {place : Token}
    (hl : l = .filter f block place) (h : Finds alphabet position cs l behind) :
    ∃ value head rest, block = value.block ∧ IsFilter alphabet cs behind f value head rest := by
  cases h with
  | combinator h => rcases combinator?_kind h with rfl | rfl | rfl <;> cases hl
  | nested _ h => cases hl
  | filter _ _ h =>
      obtain ⟨f', value, head, rest, rfl, hfilter⟩ := filter?_isFilter h
      cases hl
      exact ⟨value, head, rest, rfl, hfilter⟩
  | toggle _ _ _ h =>
      obtain ⟨name, rfl⟩ := toggle?_kind h
      cases hl
  | comment _ _ _ _ h =>
      obtain ⟨text, rfl⟩ := comment?_kind h
      cases hl
  | word _ _ _ _ _ h =>
      obtain ⟨w, rfl⟩ := word?_kind h
      cases hl

end Lexeme

end FilterQuery
