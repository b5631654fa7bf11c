import FilterQuery.Proofs.Lines
import FilterQuery.Proofs.Views

/-!
# Blanks at the ends of a text

A text says the same with blanks in front of it and behind it: it is scanned if
it is scanned without them, and then its lexemes are the same but for their
places.  Blanks in front move what follows.  Blanks behind are left over by
every rule but one, for a comment takes them with the rest of its line, and
drops them from what it says.  None of them closes a delimiter or ends a quoted
text, so what fails without them fails with them too.
-/

namespace FilterQuery

open Text (isBlank)

section Alike

variable {β γ δ ε : Type}

/-- Both fail, or both give results, and these are related. -/
inductive Alike (R : β → γ → Prop) : Except QueryError β → Except QueryError γ → Prop
  | ok {b : β} {c : γ} (h : R b c) : Alike R (.ok b) (.ok c)
  | error (e e' : QueryError) : Alike R (.error e) (.error e')

/-- Work is like itself if each result is related to itself. -/
theorem Alike.refl {R : β → β → Prop} (hrefl : ∀ b, R b b) (x : Except QueryError β) :
    Alike R x x := by
  cases x with
  | ok b => exact .ok (hrefl b)
  | error e => exact .error e e

/-- Work like other work may be followed by such work. -/
theorem Alike.bind {R : β → γ → Prop} {S : δ → ε → Prop} {x : Except QueryError β}
    {y : Except QueryError γ} {f : β → Except QueryError δ} {g : γ → Except QueryError ε}
    (h : Alike R x y) (hnext : ∀ b c, R b c → Alike S (f b) (g c)) :
    Alike S (x >>= f) (y >>= g) := by
  cases h with
  | ok h => exact hnext _ _ h
  | error e e' => exact .error e e'

/-- Results of work like other work may be changed alike. -/
theorem Alike.map {R : β → γ → Prop} {S : δ → ε → Prop} {x : Except QueryError β}
    {y : Except QueryError γ} {f : β → δ} {g : γ → ε} (h : Alike R x y)
    (hnext : ∀ b c, R b c → S (f b) (g c)) : Alike S (x.map f) (y.map g) := by
  cases h with
  | ok h => exact .ok (hnext _ _ h)
  | error e e' => exact .error e e'

/-- What is like something is like all that this is like. -/
theorem Alike.trans {R : β → γ → Prop} {S : γ → δ → Prop} {T : β → δ → Prop}
    {x : Except QueryError β} {y : Except QueryError γ} {z : Except QueryError δ}
    (h : Alike R x y) (h' : Alike S y z) (hboth : ∀ b c d, R b c → S c d → T b d) :
    Alike T x z := by
  cases h with
  | ok h =>
      cases h' with
      | ok h' => exact .ok (hboth _ _ _ h h')
  | error e e' =>
      cases h' with
      | error e' e'' => exact .error e e''

/-- Work that finds the same further on is like it. -/
theorem Moved.alike {n : Nat} {R : β → γ → Prop} {x : Except QueryError β}
    {y : Except QueryError γ} (h : Moved n R x y) : Alike R x y := by
  cases h with
  | ok h => exact .ok h
  | error e => exact .error e _

end Alike

namespace View

/-- What is said, wherever it stands. -/
def sense : View := ⟨false, true⟩

/-- The lexemes say the same, wherever they stand. -/
def SameSense (ls ls' : List Lexeme) : Prop := sense.lexemes ls' = sense.lexemes ls

theorem SameSense.refl (ls : List Lexeme) : SameSense ls ls := rfl

mutual

/-- Where a lexeme stands says nothing. -/
theorem sense_shift (n : Nat) : ∀ l : Lexeme, sense.lexeme (l.shift n) = sense.lexeme l
  | .group inner _ => congrArg (Lexeme.group · {}) (sense_shiftAll n inner)
  | .and _ | .or _ | .not _ | .nested _ | .toggle _ _ | .comment _ _ | .word _ _ => rfl
  | .filter _ none _ | .filter _ (some _) _ => rfl

/-- Where lexemes stand says nothing. -/
theorem sense_shiftAll (n : Nat) : ∀ ls : List Lexeme,
    sense.lexemes (Lexeme.shiftAll n ls) = sense.lexemes ls
  | [] => rfl
  | l :: ls => by rw [Lexeme.shiftAll, lexemes, lexemes, sense_shift n l, sense_shiftAll n ls]

end

end View

/-- Nothing but blanks. -/
def AllBlank (cs : List Char) : Prop := ∀ c ∈ cs, isBlank c = true

/-- Blanks at the end are trimmed. -/
theorem Text.trimChars_append {cs rest : List Char} (hrest : AllBlank rest) :
    trimChars (cs ++ rest) = trimChars cs := by
  have hreverse : ∀ c ∈ rest.reverse, isBlank c = true := fun c hc =>
    hrest c (List.mem_reverse.mp hc)
  unfold trimChars
  rw [List.dropWhile_append]
  split
  · next hempty =>
      rw [List.isEmpty_iff] at hempty
      rw [hempty, List.dropWhile_eq_nil_iff.mpr hrest]
  · rw [List.reverse_append, List.dropWhile_append_of_pos hreverse]

/-- Text is what trimming leaves of it, between blanks. -/
theorem Text.exists_trimChars (cs : List Char) :
    ∃ front behind, AllBlank front ∧ AllBlank behind ∧ cs = front ++ (trimChars cs ++ behind) := by
  refine ⟨cs.takeWhile isBlank, (cs.dropWhile isBlank).rtakeWhile isBlank,
    fun c hc => List.mem_takeWhile_imp hc, fun c hc => List.mem_rtakeWhile_imp hc, ?_⟩
  have htrim : trimChars cs = (cs.dropWhile isBlank).rdropWhile isBlank := rfl
  rw [htrim, List.rdropWhile_append_rtakeWhile, List.takeWhile_append_dropWhile]

/-- A plain character opens and closes nothing. -/
theorem Depth.step_of_plain {c : Char} (h : isPlain c = true) (depth : Depth) :
    depth.step c = depth := by
  obtain ⟨hopen, hclose, -, hbrace, hbrace'⟩ :
      c ≠ '(' ∧ c ≠ ')' ∧ c ≠ '"' ∧ c ≠ '\x7b' ∧ c ≠ '\x7d' := by simpa [isPlain] using h
  simp [step, hopen, hclose, hbrace, hbrace']

/-- Blanks are plain. -/
theorem isPlain_of_isBlank {c : Char} (h : isBlank c = true) : isPlain c = true := by
  rw [isPlain, Bool.not_eq_true']
  by_contra hdelimiter
  rw [Bool.not_eq_false] at hdelimiter
  have hnone : ∀ d ∈ ['(', ')', '"', '\x7b', '\x7d'], (!isBlank d) = true :=
    List.all_eq_true.mp rfl
  have hblank := hnone c (List.contains_iff_mem.mp hdelimiter)
  rw [h] at hblank
  cases hblank

namespace AllBlank

variable {rest : List Char} (hrest : AllBlank rest)
include hrest

/-- Blanks end every name and every keyword. -/
theorem ends : ∃ b, isBlank b = true ∧ Lexeme.Ends b rest := by
  cases rest with
  | nil => exact ⟨' ', by decide, .nothing⟩
  | cons b behind => exact ⟨b, hrest b List.mem_cons_self, .blank behind⟩

/-- Among blanks there is nothing else. -/
theorem not_mem {d : Char} (hd : isBlank d = false) : d ∉ rest :=
  fun hmem => absurd ((hrest d hmem).symm.trans hd) (by decide)

end AllBlank

/-- The second work finds what the first does, with more text behind it; or both
fail. -/
abbrev Trailed {β : Type} (rest : List Char) (x y : Except QueryError (Scanned β)) : Prop :=
  Alike (fun found found' => found' = Lexeme.followed rest found) x y

section Delimiters

variable {rest cs : List Char} {depth : Depth}

/-- Characters in front do not matter to what is found with blanks behind. -/
theorem prepend_trailed {x y : Except QueryError (Option (List Char × List Char))}
    (h : Trailed rest x y) (cs : List Char) : Trailed rest (prepend cs x) (prepend cs y) := by
  refine h.map fun found _ heq => ?_
  rw [heq]
  cases found <;> rfl

variable (hrest : AllBlank rest)
include hrest

/-- Nothing closes among blanks. -/
theorem closing_blanks (hopen : depth ≠ {}) (quoted : Bool) (position : Nat) :
    closing depth quoted position rest = .ok none := by
  induction rest generalizing quoted position with
  | nil => rfl
  | cons b rest ih =>
      have hb : isBlank b = true := hrest b List.mem_cons_self
      have hquote : b ≠ '"' := by
        rintro rfl
        exact absurd hb (by decide)
      have hnext := ih fun c hc => hrest c (List.mem_cons_of_mem b hc)
      rw [closing_step, Depth.step_of_plain (isPlain_of_isBlank hb), if_neg hquote, if_neg hopen,
        hnext, hnext]
      split <;> rfl

/-- **Blanks close nothing that is open.** -/
theorem closing_trailed (hopen : depth ≠ {}) (quoted : Bool) (position : Nat) (cs : List Char) :
    Trailed rest (closing depth quoted position cs)
      (closing depth quoted position (cs ++ rest)) := by
  induction cs generalizing depth quoted position with
  | nil =>
      rw [List.nil_append, closing_blanks hrest hopen]
      exact .ok rfl
  | cons c cs ih =>
      have hnext : ∀ {depth : Depth} quoted, depth ≠ {} →
          Trailed rest (prepend [c] (closing depth quoted (position + c.utf8Size) cs))
            (prepend [c] (closing depth quoted (position + c.utf8Size) (cs ++ rest))) :=
        fun quoted hopen => prepend_trailed (ih hopen quoted _) [c]
      have hmatch : (cs ++ rest).contains '"' = cs.contains '"' := by
        have hnone : rest.contains '"' = false := by simpa using hrest.not_mem (by decide)
        rw [List.contains_append, hnone, Bool.or_false]
      rw [List.cons_append, closing_step, closing_step, hmatch]
      split
      · exact hnext _ hopen
      · split
        · split
          · exact hnext _ hopen
          · exact .error _ _
        · split
          · exact .ok rfl
          · next hstays => exact hnext _ hstays

/-- What a delimiter encloses is found with blanks behind it as without them. -/
theorem delimited?_trailed {c : Char} (hc : c = '(' ∨ c = '\x7b') (position : Nat)
    (cs : List Char) :
    Trailed rest (delimited? position (c :: cs)) (delimited? position (c :: (cs ++ rest))) := by
  have hopen : c ≠ '"' ∧ Depth.step {} c ≠ {} := by
    rcases hc with rfl | rfl
    · exact ⟨by decide, by decide⟩
    · exact ⟨by decide, by decide⟩
  rw [delimited?, delimited?, closing_cons hopen.1 hopen.2, closing_cons hopen.1 hopen.2]
  refine (prepend_trailed (closing_trailed hrest hopen.2 _ _ _) [c]).map fun found _ heq => ?_
  rw [heq]
  cases found <;> rfl

/-- A quote is found with blanks behind it as without them. -/
theorem splitAtQuote?_trailed (cs : List Char) :
    splitAtQuote? (cs ++ rest) = Lexeme.followed rest (splitAtQuote? cs) := by
  cases hfound : splitAtQuote? cs with
  | some found => exact splitAtQuote?_append hfound rest
  | none =>
      induction cs with
      | nil =>
          cases hblank : splitAtQuote? rest with
          | none => exact hblank
          | some found =>
              have hquote : '"' ∈ rest := by
                rw [Lexeme.splitAtQuote?_eq_some hblank]
                simp
              exact absurd hquote (hrest.not_mem (by decide))
      | cons c cs ih =>
          rw [splitAtQuote?] at hfound
          split at hfound
          · cases hfound
          · next hquote =>
              rw [List.cons_append, splitAtQuote?, if_neg hquote,
                ih (Option.map_eq_none_iff.mp hfound)]
              rfl

end Delimiters

namespace Lexeme

variable {alphabet : List String} {rest cs : List Char} (hrest : AllBlank rest) (position : Nat)

section Rules

include hrest

/-- A nested query is found with blanks behind it as without them. -/
theorem block?_trailed (cs : List Char) :
    Trailed rest (block? position cs) (block? position (cs ++ rest)) := by
  obtain ⟨b, hb, hends⟩ := hrest.ends
  have hname := isAggregatorChar_of_isBlank hb
  by_cases hbrace : (cs.dropWhile isAggregatorChar).head? = some '\x7b'
  · have hcons := List.eq_cons_of_mem_head? hbrace
    rw [block?, block?]
    dsimp only
    rw [hends.dropWhile_append hname, hends.takeWhile_append hname, hcons, List.cons_append,
      List.head?_cons, List.head?_cons, if_pos rfl, if_pos rfl]
    refine (delimited?_trailed hrest (.inr rfl) _ _).bind fun found _ heq => ?_
    rw [heq]
    cases found with
    | none => exact .error _ _
    | some found =>
        refine .ok ?_
        simp only [followed, Option.map_some, Prod.map, id_eq, tokenBefore_append_right]
  · have hnone : block? position cs = .ok none := if_neg hbrace
    rw [hends.block?_followed hb hnone, hnone]
    exact .ok rfl

omit hrest in
/-- A value without a quote is a nested query, or goes up to a blank. -/
theorem filterValue_of_no_quote (h : cs.head? ≠ some '"') :
    filterValue position cs = (do
      match ← block? position cs with
      | some (block, behind) => return ({ text := block.token.text, block := some block }, behind)
      | none =>
        let text := String.ofList (cs.takeWhile isValueChar)
        return ({ text }, cs.dropWhile isValueChar)) := by
  unfold filterValue
  split
  · exact absurd rfl h
  · rfl

/-- A value is found with blanks behind it as without them. -/
theorem filterValue_trailed (cs : List Char) :
    Alike (fun found found' => found' = Prod.map id (· ++ rest) found) (filterValue position cs)
      (filterValue position (cs ++ rest)) := by
  obtain ⟨b, hb, hends⟩ := hrest.ends
  by_cases hquote : cs.head? = some '"'
  · rw [List.eq_cons_of_mem_head? hquote, List.cons_append, filterValue, filterValue,
      splitAtQuote?_trailed hrest]
    cases splitAtQuote? cs.tail with
    | none => exact .error _ _
    | some found => exact .ok rfl
  · have hvalue : isValueChar b = false := by simp [isValueChar, hb]
    rw [filterValue_of_no_quote _ hquote,
      filterValue_of_no_quote _ (hends.head?_append_ne hb (by decide) hquote)]
    refine (block?_trailed hrest position cs).bind fun found _ heq => ?_
    rw [heq]
    cases found with
    | none =>
        refine .ok ?_
        rw [hends.takeWhile_append hvalue, hends.dropWhile_append hvalue]
        rfl
    | some found => exact .ok rfl

/-- A parameter is found with blanks behind it as without them. -/
theorem parameter?_trailed (cs : List Char) :
    parameter? (cs ++ rest) = followed rest (parameter? cs) := by
  obtain ⟨b, hb, hends⟩ := hrest.ends
  cases hfound : parameter? cs with
  | some found => exact hends.parameter?_found hb hfound
  | none =>
      obtain ⟨inside, rfl, hnone | hnone⟩ := parameter?_eq_none hfound
      · -- Nor do the blanks have the parenthesis that the text has not.
        have hdrop : (inside ++ rest).dropWhile (fun c => !(c = '(' || c = ')')) = [] := by
          rw [List.dropWhile_eq_nil_iff]
          intro d hd
          rcases List.mem_append.mp hd with hd | hd
          · simpa using hnone d hd
          · have hopen : '(' ≠ d := ne_of_isBlank (hrest d hd) (by decide)
            have hclose : ')' ≠ d := ne_of_isBlank (hrest d hd) (by decide)
            simp [hopen.symm, hclose.symm]
        rw [List.cons_append, parameter?]
        dsimp only
        rw [hdrop]
        rfl
      · rw [hnone]
        rfl

/-- A filter is found with blanks behind it as without them. -/
theorem filter?_trailed (halphabet : ∀ op ∈ alphabet, IsOperatorToken op) (c : Char)
    (tail : List Char) :
    Trailed rest (filter? alphabet position (c :: tail))
      (filter? alphabet position (c :: tail ++ rest)) := by
  obtain ⟨b, hb, hends⟩ := hrest.ends
  have hname := isNameChar_of_isBlank hb
  have hreserved : Engine.isReserved b = true := by simp [Engine.isReserved, hb]
  rw [List.cons_append, filter?, filter?]
  split
  · exact .ok rfl
  · dsimp only
    rw [hends.dropWhile_append hname, hends.takeWhile_append hname, parameter?_trailed hrest]
    cases parameter? (tail.dropWhile isNameChar) with
    | none => exact .ok rfl
    | some found =>
        obtain ⟨param, body⟩ := found
        simp only [followed, Option.map_some, Prod.map, id_eq]
        rw [hends.operator?_append fun op hop => (halphabet op hop).not_mem hreserved]
        cases operator? alphabet body with
        | none => exact .ok rfl
        | some found =>
            obtain ⟨operator, value⟩ := found
            have hplace : Text.byteLength (c :: (tail ++ rest)) - Text.byteLength (value ++ rest) =
                Text.byteLength (c :: tail) - Text.byteLength value := by
              rw [← List.cons_append, Text.byteLength_append, Text.byteLength_append]
              exact Nat.add_sub_add_right _ _ _
            simp only [Option.map_some, hplace]
            refine (filterValue_trailed hrest _ _).bind fun found _ heq => ?_
            rw [heq]
            exact .ok rfl

/-- A word is found with blanks behind it as without them. -/
theorem word?_trailed (cs : List Char) :
    Trailed rest (word? position cs) (word? position (cs ++ rest)) := by
  obtain ⟨b, hb, hends⟩ := hrest.ends
  generalize hfound : word? position cs = found
  generalize hfound' : word? position (cs ++ rest) = found'
  unfold word? at hfound hfound'
  split at hfound
  next exact body hstart =>
  split at hfound'
  next exact' body' hstart' =>
  -- The mark of an exact word is in front of either text, or of none.
  have hsame : exact' = exact ∧ body' = body ++ rest := by
    split at hstart
    · cases hstart
      cases hstart'
      exact ⟨rfl, rfl⟩
    · next hplain =>
        cases hstart
        have hhead : cs.head? ≠ some '!' := by
          intro h
          exact hplain cs.tail (List.eq_cons_of_mem_head? h)
        split at hstart'
        · next heq => exact absurd (by rw [heq]; rfl) (hends.head?_append_ne hb (by decide) hhead)
        · cases hstart'
          exact ⟨rfl, rfl⟩
  obtain ⟨rfl, rfl⟩ := hsame
  by_cases hquote : body.head? = some '"'
  · rw [← hfound, ← hfound', List.eq_cons_of_mem_head? hquote, List.cons_append]
    simp only [splitAtQuote?_trailed hrest]
    cases splitAtQuote? body.tail with
    | none => exact .error _ _
    | some found => exact .ok rfl
  · have hquote' := hends.head?_append_ne hb (by decide) hquote
    have hword : isWordChar b = false := by simp [isWordChar, hb]
    split at hfound
    · exact absurd rfl hquote
    split at hfound'
    · next heq => exact absurd (by rw [heq]; rfl) hquote'
    rw [← hfound, ← hfound']
    dsimp only
    rw [hends.takeWhile_append hword, hends.dropWhile_append hword]
    split
    · exact .ok rfl
    · split
      · exact .ok rfl
      · exact .ok rfl

/-- A comment takes the blanks that are left of its line, and says the same with
them. -/
theorem comment?_trailed (cs : List Char) :
    comment? (cs ++ rest) = followed rest (comment? cs) ∨
      ∃ text behind, comment? cs = some (comment text, []) ∧ AllBlank behind ∧
        comment? (cs ++ rest) = some (comment text, behind) := by
  obtain ⟨b, hb, hends⟩ := hrest.ends
  by_cases hslashes : ∃ tail, cs = '/' :: '/' :: tail
  · obtain ⟨tail, rfl⟩ := hslashes
    rw [List.cons_append, List.cons_append, comment?, comment?]
    cases hdrop : tail.dropWhile (· ≠ '\n') with
    | cons d ds =>
        obtain ⟨hdrop', htake⟩ := dropWhile_append_of_cons hdrop rest
        rw [hdrop', htake]
        exact .inl rfl
    | nil =>
        have hline := List.dropWhile_eq_nil_iff.mp hdrop
        have htake : tail.takeWhile (· ≠ '\n') = tail := List.takeWhile_eq_self_iff.mpr hline
        rw [List.takeWhile_append_of_pos hline, List.dropWhile_append_of_pos hline, htake,
          Text.trimChars_append fun c hc => hrest c (List.takeWhile_subset _ hc)]
        exact .inr ⟨_, _, rfl, fun c hc => hrest c (List.dropWhile_subset _ hc), rfl⟩
  · have hnone : ∀ tail, cs ≠ '/' :: '/' :: tail := fun tail h => hslashes ⟨tail, h⟩
    left
    rw [comment?_eq_none hnone, comment?_eq_none]
    · rfl
    · intro tail h
      cases cs with
      | nil => exact hrest.not_mem (d := '/') (by decide) (by rw [← List.nil_append rest, h]; simp)
      | cons c cs =>
          cases cs with
          | nil =>
              rw [List.singleton_append] at h
              exact hrest.not_mem (d := '/') (by decide) (by rw [(List.cons.inj h).2]; simp)
          | cons d cs =>
              simp only [List.cons_append, List.cons.injEq] at h
              exact hnone cs (by rw [h.1, h.2.1])

end Rules

/-- The same lexeme is found with more text behind it, or a comment that has
taken the blanks. -/
inductive FoundTrailed (rest : List Char) : Scanned Lexeme → Scanned Lexeme → Prop
  | none : FoundTrailed rest .none .none
  | same (l : Lexeme) (behind : List Char) :
      FoundTrailed rest (some (l, behind)) (some (l, behind ++ rest))
  | comment (text : String) (t t' : Token) {behind : List Char} (h : AllBlank behind) :
      FoundTrailed rest (some (.comment text t, [])) (some (.comment text t', behind))

/-- A lexeme is made of the same characters with blanks behind them. -/
theorem located_trailed (kind : Token → Lexeme) (behind : List Char) :
    FoundTrailed rest (some (kind (tokenBefore position cs behind), behind))
      (some (kind (tokenBefore position (cs ++ rest) (behind ++ rest)), behind ++ rest)) := by
  rw [tokenBefore_append_right]
  exact .same _ _

variable (halphabet : ∀ op ∈ alphabet, IsOperatorToken op)
include hrest halphabet

/-- **A rule finds the same in front of blanks.** -/
theorem single?_trailed (c : Char) (tail : List Char) :
    Alike (FoundTrailed rest) (single? alphabet position (c :: tail))
      (single? alphabet position (c :: tail ++ rest)) := by
  obtain ⟨b, hb, hends⟩ := hrest.ends
  unfold single?
  dsimp only
  rw [hends.combinator?_followed hb]
  cases combinator? (c :: tail) with
  | some found => exact .ok (located_trailed _ _ _)
  | none =>
      refine (block?_trailed hrest position _).bind fun found _ heq => ?_
      rw [heq]
      cases found with
      | some found => exact .ok (.same _ _)
      | none =>
          refine (filter?_trailed hrest position halphabet c tail).bind fun found _ heq => ?_
          rw [heq]
          cases found with
          | some found => exact .ok (located_trailed _ _ _)
          | none =>
              dsimp only [followed, Option.map_none]
              rw [hends.toggle?_followed hb]
              cases toggle? (c :: tail) with
              | some found => exact .ok (located_trailed _ _ _)
              | none =>
                  dsimp only [followed, Option.map_none]
                  obtain hcomment | ⟨text, behind, hcomment, hblank, hcomment'⟩ :=
                    comment?_trailed hrest (c :: tail)
                  · rw [hcomment]
                    cases comment? (c :: tail) with
                    | some found => exact .ok (located_trailed _ _ _)
                    | none =>
                        refine (word?_trailed hrest position _).bind fun found _ heq => ?_
                        rw [heq]
                        cases found with
                        | some found => exact .ok (located_trailed _ _ _)
                        | none => exact .ok .none
                  · rw [hcomment, hcomment']
                    exact .ok (.comment _ _ _ hblank)

omit halphabet in
/-- Blanks have no lexemes. -/
theorem scanFrom_blanks (fuel position : Nat) : scanFrom alphabet fuel position rest = .ok [] := by
  induction fuel generalizing rest position with
  | zero => rfl
  | succ fuel ih =>
      cases rest with
      | nil => rfl
      | cons b rest =>
          rw [scanFrom_blank (hrest b List.mem_cons_self)]
          exact ih (fun c hc => hrest c (List.mem_cons_of_mem b hc)) _

/-- **Blanks behind a text say nothing.** -/
theorem scanFrom_trailed (fuel position : Nat) (cs : List Char) :
    Alike View.SameSense
      (scanFrom alphabet fuel position cs) (scanFrom alphabet fuel position (cs ++ rest)) := by
  induction fuel generalizing position cs with
  | zero => exact .ok rfl
  | succ fuel ih =>
      cases cs with
      | nil =>
          rw [List.nil_append, scanFrom_nil, scanFrom_blanks hrest]
          exact .ok rfl
      | cons c tail =>
          rw [List.cons_append, scanFrom, scanFrom]
          split
          · exact ih _ _
          · split
            · exact .error _ _
            · split
              · next hopen =>
                  refine (delimited?_trailed hrest (.inl hopen) position tail).bind
                    fun found _ heq => ?_
                  rw [heq]
                  cases found with
                  | none => exact .error _ _
                  | some found =>
                      obtain ⟨inside, behind⟩ := found
                      refine (Alike.refl Eq.refl _).bind fun inner _ hinner => ?_
                      dsimp only
                      rw [← hinner, ← List.cons_append, tokenBefore_append_right]
                      refine (ih _ _).bind fun ls ls' hrest => ?_
                      cases inner with
                      | nil => exact .ok hrest
                      | cons l inner => exact .ok (congrArg (_ :: ·) hrest)
              · refine (single?_trailed hrest position halphabet c tail).bind
                  fun _ _ hfound => ?_
                cases hfound with
                | none => exact .error _ _
                | same l behind =>
                    refine (ih _ _).bind fun ls ls' hrest => ?_
                    exact .ok (congrArg (_ :: ·) hrest)
                | comment text t t' hblank =>
                    dsimp only
                    rw [scanFrom_nil, scanFrom_blanks hblank]
                    exact .ok rfl

omit hrest halphabet in
/-- Blanks in front only move the lexemes. -/
theorem scanFrom_front {front : List Char} (hfront : AllBlank front) (fuel position : Nat) :
    scanFrom alphabet (front.length + fuel) position (front ++ cs) =
      scanFrom alphabet fuel (position + Text.byteLength front) cs := by
  induction front generalizing position with
  | nil => rw [List.length_nil, Nat.zero_add]; rfl
  | cons b front ih =>
      rw [List.length_cons, Nat.add_right_comm, List.cons_append,
        scanFrom_blank (hfront b List.mem_cons_self),
        ih fun c hc => hfront c (List.mem_cons_of_mem b hc), Text.byteLength, Nat.add_assoc]

omit hrest in
/-- **Blanks at the ends of a text say nothing.** -/
theorem scan_trim (text : String) :
    Alike View.SameSense
      (scan alphabet (Text.trim text)) (scan alphabet text) := by
  obtain ⟨front, behind, hfront, hbehind, htext⟩ := Text.exists_trimChars text.toList
  have htrim : (Text.trim text).toList = Text.trimChars text.toList := String.toList_ofList
  generalize Text.trimChars text.toList = core at htext htrim
  let fuel := core.length + behind.length + 1
  have hscan : scan alphabet text =
      scanFrom alphabet fuel (0 + Text.byteLength front) (core ++ behind) := by
    rw [scan, htext, ← scanFrom_front hfront]
    simp only [List.length_append, fuel]
    rfl
  have hscan' : scan alphabet (Text.trim text) = scanFrom alphabet fuel 0 core := by
    rw [scan, htrim]
    exact scanFrom_congr (by omega) (by omega)
  rw [hscan, hscan']
  refine (scanFrom_moved alphabet (Text.byteLength front) fuel 0 core).alike.trans
    (scanFrom_trailed hbehind halphabet fuel _ core) fun ls ls' ls'' hmoved htrailed => ?_
  rw [View.SameSense, htrailed, hmoved, View.sense_shiftAll]

end Lexeme

end FilterQuery
