import FilterQuery.Proofs.Scanning

/-!
# Alphabets

An alphabet lists the tokens of all operators, the longest first, so that the
first token which the characters begin with is the longest of those that they
begin with.  There is only one such token, and so a text is scanned in the same
way whatever the order in which the operators were registered.
-/

namespace FilterQuery

open FilterQuery.OperatorTable (insertToken)

/-- The tokens are those of the operators in the table. -/
theorem OperatorTable.mem_alphabet_iff_contains {table : OperatorTable} {token : String} :
    token ∈ table.alphabet ↔ table.contains token = true := by
  rw [mem_alphabet, contains_iff]

/-- No token is longer than one in front of it. -/
def IsLongestFirst (alphabet : List String) : Prop :=
  alphabet.Pairwise fun longer shorter => shorter.utf8ByteSize ≤ longer.utf8ByteSize

/-- A new token goes in front of the first one that is not longer. -/
theorem IsLongestFirst.insertToken {ts : List String} (h : IsLongestFirst ts) (token : String) :
    IsLongestFirst (insertToken token ts) := by
  induction ts with
  | nil => exact List.pairwise_singleton _ _
  | cons t ts ih =>
      obtain ⟨hfirst, hrest⟩ := List.pairwise_cons.mp h
      rw [OperatorTable.insertToken]
      split
      · next hbefore =>
          have hlonger : t.utf8ByteSize ≤ token.utf8ByteSize := by
            simp only [OperatorTable.tokenBefore, Bool.or_eq_true, Bool.and_eq_true,
              decide_eq_true_eq] at hbefore
            omega
          refine List.pairwise_cons.mpr ⟨fun u hu => ?_, h⟩
          rcases List.mem_cons.mp hu with rfl | hu
          · exact hlonger
          · exact Nat.le_trans (hfirst u hu) hlonger
      · next hbefore =>
          have hshorter : token.utf8ByteSize ≤ t.utf8ByteSize := by
            simp only [OperatorTable.tokenBefore, Bool.or_eq_true, decide_eq_true_eq,
              not_or] at hbefore
            omega
          refine List.pairwise_cons.mpr ⟨fun u hu => ?_, ih hrest⟩
          rcases OperatorTable.mem_insertToken.mp hu with rfl | hu
          · exact hshorter
          · exact hfirst u hu

/-- **The tokens of a table are in order of their length**, the longest
first. -/
theorem alphabet_isLongestFirst (table : OperatorTable) : IsLongestFirst table.alphabet := by
  rw [OperatorTable.alphabet]
  induction table.operators.map (·.token) with
  | nil => exact List.Pairwise.nil
  | cons token tokens ih => exact ih.insertToken token

namespace Lexeme

open Text

variable {alphabet alphabet' : List String} {cs rest : List Char} {op : String}

/-- The characters begin with at most one text of each length. -/
theorem eq_of_prefixes {a b : String} (ha : a.toList <+: cs) (hb : b.toList <+: cs)
    (h : a.utf8ByteSize = b.utf8ByteSize) : a = b := by
  have hempty : ∀ {a b : String}, a.toList <+: b.toList → a.utf8ByteSize = b.utf8ByteSize →
      a = b := by
    rintro a b ⟨more, hmore⟩ h
    have hlength := congrArg byteLength hmore
    rw [byteLength_append, byteLength_toList, byteLength_toList] at hlength
    have hmore' := length_le_byteLength more
    obtain rfl : more = [] := List.length_eq_zero_iff.mp (by omega)
    rw [List.append_nil] at hmore
    exact String.toList_inj.mp hmore
  rcases List.prefix_or_prefix_of_prefix ha hb with hab | hba
  · exact hempty hab h
  · exact (hempty hba h.symm).symm

/-- No operator is read if the characters begin with no token. -/
theorem operator?_eq_none : operator? alphabet cs = none ↔ ∀ op ∈ alphabet, ¬ op.toList <+: cs := by
  simp [operator?, List.isPrefixOf_iff_prefix]

/-- No token that the characters begin with is longer than the first. -/
theorem first_is_longest (h : IsLongestFirst alphabet)
    (hfound : operator? alphabet cs = some (op, rest)) :
    ∀ token ∈ alphabet, token.toList <+: cs → token.utf8ByteSize ≤ op.utf8ByteSize := by
  intro token htoken hbegins
  obtain ⟨found, hfind, heq⟩ := Option.map_eq_some_iff.mp hfound
  obtain ⟨rfl, -⟩ := Prod.mk.inj heq
  obtain ⟨-, before, behind, rfl, hbefore⟩ := List.find?_eq_some_iff_append.mp hfind
  rcases List.mem_append.mp htoken with htoken | htoken
  · have hnot := hbefore token htoken
    simp [List.isPrefixOf_iff_prefix.mpr hbegins] at hnot
  · rcases List.mem_cons.mp htoken with rfl | htoken
    · exact Nat.le_refl _
    · have hrest := (List.pairwise_append.mp h).2.1
      exact (List.pairwise_cons.mp hrest).1 token htoken

/-- **The operator is the longest token that the characters begin with.** -/
theorem operator?_eq_longest (h : IsLongestFirst alphabet) :
    operator? alphabet cs = some (op, rest) ↔ op ∈ alphabet ∧ cs = op.toList ++ rest ∧
      ∀ token ∈ alphabet, token.toList <+: cs → token.utf8ByteSize ≤ op.utf8ByteSize := by
  constructor
  · intro hfound
    obtain ⟨hop, hcs⟩ := operator?_eq_some hfound
    exact ⟨hop, hcs, first_is_longest h hfound⟩
  · rintro ⟨hop, rfl, hlongest⟩
    cases hfound : operator? alphabet (op.toList ++ rest) with
    | none => exact absurd (List.prefix_append _ _) (operator?_eq_none.mp hfound op hop)
    | some found =>
        obtain ⟨op', rest'⟩ := found
        obtain ⟨hop', hcs⟩ := operator?_eq_some hfound
        have hbegins : op.toList <+: op.toList ++ rest := List.prefix_append _ _
        have hbegins' : op'.toList <+: op.toList ++ rest := hcs ▸ List.prefix_append _ _
        have hsame : op'.utf8ByteSize = op.utf8ByteSize := Nat.le_antisymm
          (hlongest op' hop' hbegins') (first_is_longest h hfound op hop hbegins)
        obtain rfl : op' = op := eq_of_prefixes hbegins' hbegins hsame
        rw [List.append_cancel_left hcs]

/-- The operator does not depend on the order of the tokens. -/
theorem operator?_congr (h : IsLongestFirst alphabet) (h' : IsLongestFirst alphabet')
    (hmem : ∀ token, token ∈ alphabet ↔ token ∈ alphabet') (cs : List Char) :
    operator? alphabet cs = operator? alphabet' cs := by
  refine Option.ext fun ⟨op, rest⟩ => ?_
  rw [operator?_eq_longest h, operator?_eq_longest h', hmem]
  simp only [hmem]

section Scan

variable (hop : ∀ cs, operator? alphabet cs = operator? alphabet' cs)

include hop

/-- A single lexeme is read alike with alphabets that read the same
operators. -/
theorem single?_of_operators (position : Nat) (cs : List Char) :
    single? alphabet position cs = single? alphabet' position cs := by
  have hfilter : filter? alphabet position cs = filter? alphabet' position cs := by
    unfold filter?
    simp only [hop]
  unfold single?
  simp only [hfilter]

/-- So are the lexemes of a text. -/
theorem scanFrom_of_operators (fuel position : Nat) (cs : List Char) :
    scanFrom alphabet fuel position cs = scanFrom alphabet' fuel position cs := by
  induction fuel generalizing position cs with
  | zero => rfl
  | succ fuel ih =>
      cases cs with
      | nil => rfl
      | cons c tail =>
          rw [scanFrom, scanFrom]
          simp only [ih, single?_of_operators hop]

end Scan

/-- **Engines with the same operators scan every text in the same way.** -/
theorem scan_of_same_tokens {table table' : OperatorTable}
    (h : ∀ token, table.contains token = table'.contains token) (text : String) :
    scan table.alphabet text = scan table'.alphabet text := by
  have hmem : ∀ token, token ∈ table.alphabet ↔ token ∈ table'.alphabet := by
    intro token
    rw [OperatorTable.mem_alphabet_iff_contains, OperatorTable.mem_alphabet_iff_contains, h]
  exact scanFrom_of_operators (operator?_congr (alphabet_isLongestFirst table)
    (alphabet_isLongestFirst table') hmem) _ _ _

end Lexeme

end FilterQuery
