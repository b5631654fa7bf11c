import FilterQuery.Proofs.ScanSteps

/-!
# Shifting

No rule of the scanner looks at the place where the text stands.  So text that
stands further on gives the same lexemes further on, or the same error.  `Moved`
relates the two results of a piece of work, and each function has one statement
about its results.
-/

namespace FilterQuery

open Text (byteLength isBlank)

/-- The token of the same text, `n` bytes further on. -/
def Token.shift (n : Nat) (t : Token) : Token := { t with position := t.position + n }

/-- A token further on ends further on. -/
theorem Token.stop_shift (n : Nat) (t : Token) : (t.shift n).stop = t.stop + n :=
  Nat.add_right_comm ..

def NestedBlock.shift (n : Nat) (block : NestedBlock) : NestedBlock :=
  { block with token := block.token.shift n }

/-- The error about the same text, `n` bytes further on. -/
def QueryError.shift (n : Nat) (e : QueryError) : QueryError := { e with index := e.index + n }

namespace Lexeme

mutual

/-- The lexeme of the same text, `n` bytes further on. -/
def shift (n : Nat) : Lexeme → Lexeme
  | .group inner token => .group (shiftAll n inner) (token.shift n)
  | .and token => .and (token.shift n)
  | .or token => .or (token.shift n)
  | .not token => .not (token.shift n)
  | .nested block => .nested (block.shift n)
  | .filter f block token => .filter f (block.map (·.shift n)) (token.shift n)
  | .toggle name token => .toggle name (token.shift n)
  | .comment text token => .comment text (token.shift n)
  | .word w token => .word w (token.shift n)

def shiftAll (n : Nat) : List Lexeme → List Lexeme
  | [] => []
  | l :: ls => shift n l :: shiftAll n ls

end

theorem shift_token (n : Nat) (l : Lexeme) : (shift n l).token = l.token.shift n := by
  cases l <;> rfl

theorem tokenBefore_shift (n position : Nat) (cs rest : List Char) :
    tokenBefore (position + n) cs rest = (tokenBefore position cs rest).shift n := rfl

end Lexeme

section Moved

variable {β γ δ ε : Type} {n : Nat}

/-- The results are related, or the errors are the same further on. -/
inductive Moved (n : Nat) (R : β → γ → Prop) : Except QueryError β → Except QueryError γ → Prop
  | ok {b : β} {c : γ} (h : R b c) : Moved n R (.ok b) (.ok c)
  | error (e : QueryError) : Moved n R (.error e) (.error (e.shift n))

/-- Work that finds the same further on may be followed by such work. -/
theorem Moved.bind {R : β → γ → Prop} {S : δ → ε → Prop} {x : Except QueryError β}
    {y : Except QueryError γ} {f : β → Except QueryError δ} {g : γ → Except QueryError ε}
    (h : Moved n R x y) (hnext : ∀ b c, R b c → Moved n S (f b) (g c)) :
    Moved n S (x >>= f) (y >>= g) := by
  cases h with
  | ok h => exact hnext _ _ h
  | error e => exact .error e

/-- Results found further on may be changed alike. -/
theorem Moved.map {R : β → γ → Prop} {S : δ → ε → Prop} {x : Except QueryError β}
    {y : Except QueryError γ} {f : β → δ} {g : γ → ε} (h : Moved n R x y)
    (hnext : ∀ b c, R b c → S (f b) (g c)) : Moved n S (x.map f) (y.map g) := by
  cases h with
  | ok h => exact .ok (hnext _ _ h)
  | error e => exact .error e

/-- Both rules find nothing, or related things in front of the same text. -/
inductive FoundAlike (R : β → γ → Prop) : Scanned β → Scanned γ → Prop
  | none : FoundAlike R .none .none
  | some {b : β} {c : γ} (h : R b c) (behind : List Char) :
      FoundAlike R (.some (b, behind)) (.some (c, behind))

end Moved

/-- What closes does so further on as well. -/
theorem closing_moved (n : Nat) (depth : Depth) (quoted : Bool) (position : Nat) (cs : List Char) :
    Moved n (· = ·) (closing depth quoted position cs)
      (closing depth quoted (position + n) cs) := by
  induction cs generalizing depth quoted position with
  | nil => exact .ok rfl
  | cons c cs ih =>
      have hnext : ∀ depth quoted, Moved n (· = ·)
          (prepend [c] (closing depth quoted (position + c.utf8Size) cs))
          (prepend [c] (closing depth quoted (position + n + c.utf8Size) cs)) := by
        intro depth quoted
        rw [Nat.add_right_comm]
        exact (ih depth quoted (position + c.utf8Size)).map fun _ _ heq => congrArg _ heq
      rw [closing_step, closing_step]
      split
      · exact hnext depth (c ≠ '"')
      · split
        · split
          · exact hnext depth true
          · exact .error _
        · split
          · exact .ok rfl
          · exact hnext (depth.step c) false

/-- A delimiter is closed further on as well. -/
theorem delimited?_moved (n position : Nat) (cs : List Char) :
    Moved n (· = ·) (delimited? position cs) (delimited? (position + n) cs) :=
  (closing_moved n {} false position cs).map fun _ _ heq => congrArg _ heq

namespace Lexeme

variable {alphabet : List String} {n position : Nat} {cs : List Char}

/-- The makers of lexemes give the same lexeme further on. -/
def KindMoved (n : Nat) (kind kind' : Token → Lexeme) : Prop :=
  ∀ t, kind' (t.shift n) = (kind t).shift n

/-- A nested query is found further on. -/
theorem block?_moved (n position : Nat) (cs : List Char) :
    Moved n (FoundAlike fun block block' => block' = block.shift n) (block? position cs)
      (block? (position + n) cs) := by
  rw [block?, block?]
  dsimp only
  split
  · rw [Nat.add_right_comm position n]
    refine (delimited?_moved n _ _).bind fun found _ heq => ?_
    obtain rfl := heq
    cases found with
    | none => exact .error _
    | some found =>
        refine .ok (.some ?_ _)
        rfl
  · exact .ok .none

/-- A value is found further on. -/
theorem filterValue_moved (n position : Nat) (cs : List Char) :
    Moved n (fun found found' => found'.2 = found.2 ∧
        found'.1 = { found.1 with block := found.1.block.map (·.shift n) })
      (filterValue position cs) (filterValue (position + n) cs) := by
  unfold filterValue
  split
  · split
    · exact .ok ⟨rfl, rfl⟩
    · exact .error _
  · refine (block?_moved n position cs).bind fun found found' hfound => ?_
    cases hfound with
    | none => exact .ok ⟨rfl, rfl⟩
    | some heq behind =>
        rw [heq]
        exact .ok ⟨rfl, rfl⟩

/-- A filter is found further on. -/
theorem filter?_moved (alphabet : List String) (n position : Nat) (cs : List Char) :
    Moved n (FoundAlike (KindMoved n)) (filter? alphabet position cs)
      (filter? alphabet (position + n) cs) := by
  cases cs with
  | nil => exact .ok .none
  | cons c tail =>
      rw [filter?, filter?]
      split
      · exact .ok .none
      · dsimp only
        split
        · exact .ok .none
        · split
          · exact .ok .none
          · rw [Nat.add_right_comm position n]
            refine (filterValue_moved n _ _).bind fun found found' hfound => ?_
            obtain ⟨hbehind, hvalue⟩ := hfound
            rw [hbehind, hvalue]
            exact .ok (.some (fun _ => rfl) _)

/-- A word is found further on. -/
theorem word?_moved (n position : Nat) (cs : List Char) :
    Moved n (FoundAlike (KindMoved n)) (word? position cs) (word? (position + n) cs) := by
  unfold word?
  split
  split
  · split
    · exact .ok (.some (fun _ => rfl) _)
    · rw [Nat.add_right_comm position n]
      exact .error _
  · dsimp only
    split
    · exact .ok (.some (fun _ => rfl) _)
    · split
      · exact .ok (.some (fun _ => rfl) _)
      · exact .ok .none

/-- A combinator is the same further on. -/
theorem combinator?_movable {kind : Token → Lexeme} {behind : List Char}
    (h : combinator? cs = some (kind, behind)) : KindMoved n kind kind := by
  rcases combinator?_kind h with rfl | rfl | rfl
  · exact fun _ => rfl
  · exact fun _ => rfl
  · exact fun _ => rfl

/-- A toggle is the same further on. -/
theorem toggle?_movable {kind : Token → Lexeme} {behind : List Char}
    (h : toggle? cs = some (kind, behind)) : KindMoved n kind kind := by
  obtain ⟨name, rfl⟩ := toggle?_kind h
  exact fun _ => rfl

/-- A comment is the same further on. -/
theorem comment?_movable {kind : Token → Lexeme} {behind : List Char}
    (h : comment? cs = some (kind, behind)) : KindMoved n kind kind := by
  obtain ⟨text, rfl⟩ := comment?_kind h
  exact fun _ => rfl

/-- What a maker of lexemes gives for the token of what has been taken. -/
theorem located_moved {kind kind' : Token → Lexeme} (h : KindMoved n kind kind')
    (behind : List Char) :
    FoundAlike (fun l l' => l' = shift n l)
      (some (kind (tokenBefore position cs behind), behind))
      (some (kind' (tokenBefore (position + n) cs behind), behind)) := by
  refine .some ?_ behind
  rw [tokenBefore_shift, h]

/-- **A rule finds the same lexeme further on.** -/
theorem single?_moved (alphabet : List String) (n position : Nat) (cs : List Char) :
    Moved n (FoundAlike fun l l' => l' = l.shift n) (single? alphabet position cs)
      (single? alphabet (position + n) cs) := by
  unfold single?
  dsimp only
  cases hcombinator : combinator? cs with
  | some found => exact .ok (located_moved (combinator?_movable hcombinator) _)
  | none =>
      dsimp only
      refine (block?_moved n position cs).bind fun _ _ hblock => ?_
      cases hblock with
      | some heq behind =>
          rw [heq]
          refine .ok (.some ?_ behind)
          rfl
      | none =>
          refine (filter?_moved alphabet n position cs).bind fun _ _ hfilter => ?_
          cases hfilter with
          | some hkind behind => exact .ok (located_moved hkind behind)
          | none =>
              cases htoggle : toggle? cs with
              | some found => exact .ok (located_moved (toggle?_movable htoggle) _)
              | none =>
                  cases hcomment : comment? cs with
                  | some found => exact .ok (located_moved (comment?_movable hcomment) _)
                  | none =>
                      refine (word?_moved n position cs).bind fun _ _ hword => ?_
                      cases hword with
                      | some hkind behind => exact .ok (located_moved hkind behind)
                      | none => exact .ok .none

/-- **Text further on gives the same lexemes further on**, or the same error. -/
theorem scanFrom_moved (alphabet : List String) (n fuel position : Nat) (cs : List Char) :
    Moved n (fun ls ls' => ls' = shiftAll n ls) (scanFrom alphabet fuel position cs)
      (scanFrom alphabet fuel (position + n) cs) := by
  induction fuel generalizing position cs with
  | zero => exact .ok rfl
  | succ fuel ih =>
      cases cs with
      | nil => exact .ok rfl
      | cons c tail =>
          rw [scanFrom, scanFrom]
          split
          · rw [Nat.add_right_comm]
            exact ih _ _
          · split
            · exact .error _
            · split
              · refine (delimited?_moved n position (c :: tail)).bind fun found _ heq => ?_
                obtain rfl := heq
                cases found with
                | none => exact .error _
                | some found =>
                    rw [Nat.add_right_comm]
                    refine (ih _ _).bind fun inner _ hinner => ?_
                    rw [hinner]
                    dsimp only
                    rw [tokenBefore_shift, Token.stop_shift]
                    refine (ih _ _).bind fun rest _ hrest => ?_
                    rw [hrest]
                    cases inner with
                    | nil => exact .ok rfl
                    | cons l inner => exact .ok rfl
              · refine (single?_moved alphabet n position (c :: tail)).bind fun _ _ hfound => ?_
                cases hfound with
                | none => exact .error _
                | @some l _ heq behind =>
                    rw [heq]
                    dsimp only
                    rw [shift_token, Token.stop_shift]
                    refine (ih _ _).bind fun rest _ hrest => ?_
                    rw [hrest]
                    exact .ok rfl

end Lexeme

end FilterQuery
