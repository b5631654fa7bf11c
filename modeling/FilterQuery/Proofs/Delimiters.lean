import FilterQuery.Lexeme.Scan

/-!
# Balanced text

A parenthesis is closed by counting, so what stands between it and its end must
be balanced: text without quotes and braces in which every parenthesis that
opens is closed.  Counting passes over balanced text at any depth.
-/

namespace FilterQuery

open Text (byteLength)

/-- Characters in front of what has been found. -/
def prepend (cs : List Char) :
    Except QueryError (Option (List Char × List Char)) →
      Except QueryError (Option (List Char × List Char)) :=
  Except.map (Option.map fun (taken, rest) => (cs ++ taken, rest))

/-- Nothing in front of what is found changes nothing. -/
theorem prepend_nil (found : Except QueryError (Option (List Char × List Char))) :
    prepend [] found = found := by
  match found with
  | .error _ => rfl
  | .ok none => rfl
  | .ok (some _) => rfl

/-- Characters that go in front go there one after another. -/
theorem prepend_append (as bs : List Char)
    (found : Except QueryError (Option (List Char × List Char))) :
    prepend (as ++ bs) found = prepend as (prepend bs found) := by
  match found with
  | .error _ => rfl
  | .ok none => rfl
  | .ok (some (taken, rest)) => simp [prepend, Except.map]

/-- Within parentheses, the count passes over the characters and is the same
behind them. -/
def IsBalanced (cs : List Char) : Prop :=
  ∀ (depth position : Nat) (rest : List Char),
    closing ⟨depth + 1, 0⟩ false position (cs ++ rest) =
      prepend cs (closing ⟨depth + 1, 0⟩ false (position + byteLength cs) rest)

/-- A character that neither opens nor closes anything. -/
def isPlain (c : Char) : Bool :=
  !(['(', ')', '"', '\x7b', '\x7d'].contains c)

/-- Characters of a word open and close nothing. -/
theorem isPlain_of_isWordChar {c : Char} (h : Lexeme.isWordChar c = true) : isPlain c = true :=
  (Bool.and_eq_true_iff.mp h).2

/-- One character, at a depth at which something stays open behind it. -/
theorem closing_cons {depth : Depth} {position : Nat} {c : Char} {cs : List Char} (hc : c ≠ '"')
    (hopen : depth.step c ≠ {}) :
    closing depth false position (c :: cs) =
      prepend [c] (closing (depth.step c) false (position + c.utf8Size) cs) := by
  rw [closing, if_neg (by simp), if_neg hc]
  dsimp only
  rw [if_neg hopen]
  rfl

namespace IsBalanced

theorem nil : IsBalanced [] := fun _ _ _ => (prepend_nil _).symm

/-- Balanced text behind balanced text is balanced. -/
theorem append {as bs : List Char} (ha : IsBalanced as) (hb : IsBalanced bs) :
    IsBalanced (as ++ bs) := by
  intro depth position rest
  rw [List.append_assoc, ha, hb, prepend_append, Text.byteLength_append, Nat.add_assoc]

/-- Plain text is balanced, for it has nothing that opens or closes. -/
theorem plain {cs : List Char} (h : ∀ c ∈ cs, isPlain c = true) : IsBalanced cs := by
  induction cs with
  | nil => exact nil
  | cons c cs ih =>
      have hcs : IsBalanced cs := ih fun d hd => h d (List.mem_cons_of_mem c hd)
      obtain ⟨hopen, hclose, hquote, hbrace, hbrace'⟩ :
          c ≠ '(' ∧ c ≠ ')' ∧ c ≠ '"' ∧ c ≠ '\x7b' ∧ c ≠ '\x7d' := by
        simpa [isPlain] using h c List.mem_cons_self
      intro depth position rest
      have hstep : Depth.step ⟨depth + 1, 0⟩ c = ⟨depth + 1, 0⟩ := by
        simp [Depth.step, hopen, hclose, hbrace]
      rw [List.cons_append, closing_cons hquote (by simp [hstep]), hstep, hcs, ← prepend_append,
        List.singleton_append, Nat.add_assoc]
      rfl

/-- Balanced text in parentheses is balanced. -/
theorem group {cs : List Char} (h : IsBalanced cs) : IsBalanced ('(' :: cs ++ [')']) := by
  intro depth position rest
  have hopen : Depth.step ⟨depth + 1, 0⟩ '(' = ⟨depth + 2, 0⟩ := rfl
  have hclose : Depth.step ⟨depth + 2, 0⟩ ')' = ⟨depth + 1, 0⟩ := rfl
  have hlist : '(' :: cs ++ [')'] ++ rest = '(' :: (cs ++ ')' :: rest) := by simp
  have hchars : '(' :: cs ++ [')'] = ['('] ++ (cs ++ [')']) := rfl
  rw [hlist, closing_cons (by decide) (by simp [hopen]), hopen, h,
    closing_cons (by decide) (by simp [hclose]), hclose, hchars, prepend_append, prepend_append,
    Text.byteLength_append, Text.byteLength_append]
  simp only [byteLength, Nat.add_zero, Nat.add_assoc]

end IsBalanced

/-- **Balanced text between parentheses is delimited by them.** -/
theorem delimited?_group {cs : List Char} (h : IsBalanced cs) (position : Nat) (rest : List Char) :
    delimited? position ('(' :: (cs ++ ')' :: rest)) = .ok (some (cs, rest)) := by
  have hopen : Depth.step {} '(' = ⟨0 + 1, 0⟩ := rfl
  have hclose : Depth.step ⟨0 + 1, 0⟩ ')' = {} := rfl
  have hlast : ∀ position,
      closing ⟨0 + 1, 0⟩ false position (')' :: rest) = .ok (some ([')'], rest)) := by
    intro position
    rw [closing, if_neg (by simp), if_neg (by decide)]
    dsimp only
    rw [hclose, if_pos rfl]
  rw [delimited?, closing_cons (by decide) (by simp [hopen]), hopen, h, hlast]
  simp [prepend, Except.map]

end FilterQuery
