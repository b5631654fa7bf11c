import FilterQuery.Proofs.Grammar
import FilterQuery.Proofs.Tiling
import FilterQuery.Proofs.Trimming

/-!
# Nested queries in a text

A nested query is what stands between two braces of the text, without the blanks
at its ends.  So it is shorter than the text by two bytes at least, wherever it
stands in it: by itself, behind the name of an aggregator, as the value of a
filter, or in a group.
-/

namespace FilterQuery

open Grammar
open Text (byteLength isBlank)

/-- What a brace delimits stands in front of one more character. -/
theorem delimited?_brace {position : Nat} {cs inside behind : List Char}
    (h : delimited? position ('\x7b' :: cs) = .ok (some (inside, behind))) :
    ∃ last, cs = inside ++ last :: behind := by
  obtain ⟨taken, htaken, rfl⟩ := delimited?_eq_found.mp h
  cases htaken with
  | @next _ _ _ taken _ _ _ htaken =>
      obtain ⟨rfl, hne⟩ := htaken.eq_append
      refine ⟨taken.getLast hne, ?_⟩
      rw [List.tail_cons, ← List.singleton_append, ← List.append_assoc,
        List.dropLast_append_getLast]
  | last _ hclosed _ => cases hclosed

/-- Trimming makes characters no longer. -/
theorem Text.byteLength_trimChars_le (cs : List Char) :
    byteLength (trimChars cs) ≤ byteLength cs := by
  obtain ⟨front, behind, -, -, htext⟩ := exists_trimChars cs
  have hlength := congrArg byteLength htext
  rw [byteLength_append, byteLength_append] at hlength
  omega

/-- Trimming makes text no longer. -/
theorem Text.utf8ByteSize_trim_le (text : String) :
    (trim text).utf8ByteSize ≤ text.utf8ByteSize := by
  have htrim : (trim text).toList = trimChars text.toList := String.toList_ofList
  rw [← byteLength_toList, ← byteLength_toList, htrim]
  exact byteLength_trimChars_le text.toList

/-- The text in braces. -/
def Text.braced (text : String) : String := "\x7b" ++ text ++ "\x7d"

/-- Braces add two bytes. -/
theorem Text.utf8ByteSize_braced (text : String) :
    (braced text).utf8ByteSize = text.utf8ByteSize + 2 := by
  simp only [← byteLength_toList, braced, String.toList_append, byteLength_append]
  have hopen : byteLength "\x7b".toList = 1 := rfl
  have hclose : byteLength "\x7d".toList = 1 := rfl
  omega

namespace Lexeme

variable {alphabet : List String} {position : Nat} {cs behind : List Char} {ls : List Lexeme}
  {q : NestedExpression}

/-- A block is the name of an aggregator, or none, and a query in braces. -/
theorem block?_braces {block : NestedBlock} (h : block? position cs = .ok (some (block, behind))) :
    ∃ inside last, cs.dropWhile isAggregatorChar = '\x7b' :: (inside ++ last :: behind) ∧
      (cs.takeWhile isAggregatorChar = [] → block.aggregator = none) ∧
      block.query = String.ofList (Text.trimChars inside) := by
  obtain ⟨inside, hbrace, hfound, rfl⟩ := block?_eq_found.mp h
  obtain ⟨rest, hrest⟩ := List.head?_eq_some_iff.mp hbrace
  rw [hrest] at hfound ⊢
  obtain ⟨last, rfl⟩ := delimited?_brace hfound
  exact ⟨inside, last, rfl, fun hnil => if_pos (List.isEmpty_iff.mpr hnil), rfl⟩

/-- The query of a block is shorter than the characters that it is read from, by
its braces. -/
theorem block?_size {block : NestedBlock} (h : block? position cs = .ok (some (block, behind))) :
    block.query.utf8ByteSize + 2 ≤ byteLength cs := by
  obtain ⟨inside, last, hbraces, -, hquery⟩ := block?_braces h
  have htext := List.takeWhile_append_dropWhile (p := isAggregatorChar) (l := cs)
  rw [hbraces] at htext
  have hlength := congrArg byteLength htext
  have hlast : 0 < last.utf8Size := last.utf8Size_pos
  have hbrace : ('\x7b').utf8Size = 1 := rfl
  have htrim := Text.byteLength_trimChars_le inside
  simp only [Text.byteLength_append, byteLength, hbrace] at hlength
  rw [← Text.byteLength_toList, hquery, String.toList_ofList]
  omega

/-- A value is quoted, or a block, or a row of characters that does not begin
with a quote. -/
theorem filterValue_cases {value : FilterValue}
    (h : filterValue position cs = .ok (value, behind)) :
    (value.block = none ∧ value.quoted = true ∧ ∃ more, cs = '"' :: more) ∨
      (∃ block, value.block = some block ∧ block? position cs = .ok (some (block, behind))) ∨
      value.block = none ∧ value.quoted = false ∧ value.text.toList = cs.takeWhile isValueChar ∧
        cs.head? ≠ some '"' := by
  unfold filterValue at h
  split at h
  · next more =>
      split at h
      · cases h
        exact .inl ⟨rfl, rfl, more, rfl⟩
      · cases h
  · next hquote =>
      have hhead : cs.head? ≠ some '"' := by
        intro heq
        obtain ⟨more, rfl⟩ := List.head?_eq_some_iff.mp heq
        exact hquote more rfl
      obtain hnone | ⟨block, rest, hfound⟩ | ⟨e, herror⟩ := scanned_cases (block? position cs)
      · rw [hnone] at h
        cases h
        exact .inr (.inr ⟨rfl, rfl, String.toList_ofList, hhead⟩)
      · rw [hfound] at h
        cases h
        exact .inr (.inl ⟨block, rfl, hfound⟩)
      · rw [herror] at h
        cases h

/-- The block in a filter's value is read where the value is. -/
theorem block?_of_filterValue {value : FilterValue} {block : NestedBlock}
    (h : filterValue position cs = .ok (value, behind)) (hblock : value.block = some block) :
    block? position cs = .ok (some (block, behind)) := by
  rcases filterValue_cases h with ⟨hnone, -⟩ | ⟨found, hsome, hfound⟩ | ⟨hnone, -⟩
  · cases hnone.symm.trans hblock
  · obtain rfl := Option.some.inj (hsome.symm.trans hblock)
    exact hfound
  · cases hnone.symm.trans hblock

/-- The nested query stands among the lexemes, by itself or as the value of a
filter. -/
def Nests (ls : List Lexeme) (q : NestedExpression) : Prop :=
  ∃ c ∈ operandsOf ls, c.kind = .nestedQuery q

/-- The lexemes nest a query if it is one of their operands. -/
theorem nests_iff : Nests ls q ↔ .nestedQuery q ∈ (operandsOf ls).map (·.kind) :=
  List.mem_map.symm

/-- Lexemes in a row nest what one of them nests. -/
theorem nests_append {ms : List Lexeme} : Nests (ls ++ ms) q ↔ Nests ls q ∨ Nests ms q := by
  rw [nests_iff, nests_iff, nests_iff, operandsOf_append, List.map_append, List.mem_append]

/-- Parentheses nest what is nested between them. -/
theorem nests_grouped {inner : List Lexeme} {token : Token} :
    Nests (grouped inner token) q ↔ Nests inner q := by
  cases inner with
  | nil => rfl
  | cons l inner =>
      rw [nests_iff, nests_iff]
      simp [grouped, operandsOf, operands]

/-- The operands of a block have its query. -/
theorem query_of_blockOperands {block : NestedBlock} {filter : Option String}
    (h : .nestedQuery q ∈ (blockOperands block filter).map (·.kind)) : q.query = block.query := by
  obtain ⟨c, hc, hkind⟩ := List.mem_map.mp h
  rw [blockOperands, List.mem_append, List.mem_singleton] at hc
  rcases hc with hc | rfl
  · obtain ⟨name, -, rfl⟩ := Option.map_eq_some_iff.mp (Option.mem_toList.mp hc)
    cases hkind
  · cases hkind
    rfl

/-- A lexeme that a rule finds is longer than a nested query in it. -/
theorem Finds.nests_size {l : Lexeme} (h : Finds alphabet position cs l behind)
    (hq : Nests [l] q) : q.query.utf8ByteSize + 2 ≤ byteLength cs := by
  rw [nests_iff, operandsOf, operandsOf, List.append_nil] at hq
  cases h with
  | combinator h => rcases combinator?_kind h with rfl | rfl | rfl <;> cases hq
  | nested _ h =>
      rw [query_of_blockOperands hq]
      exact block?_size h
  | filter _ _ h =>
      obtain ⟨c, tail, f, value, rest, rfl, hrest, hvalue, rfl⟩ := filter?_eq_found h
      generalize hblock : value.block = found at hq
      cases found with
      | none => simp [operands] at hq
      | some block =>
          rw [operands, List.map_cons, List.mem_cons] at hq
          have hblocks := query_of_blockOperands (hq.resolve_left nofun)
          have hsize := block?_size (block?_of_filterValue hvalue hblock)
          obtain ⟨front, rfl⟩ := hrest
          rw [hblocks, byteLength, Text.byteLength_append]
          omega
  | toggle _ _ _ h =>
      obtain ⟨name, rfl⟩ := toggle?_kind h
      simp [operands] at hq
  | comment _ _ _ _ h =>
      obtain ⟨text, rfl⟩ := comment?_kind h
      simp [operands] at hq
  | word _ _ _ _ _ h =>
      obtain ⟨w, rfl⟩ := word?_kind h
      simp [operands] at hq

/-- **A nested query is shorter than the text that it stands in.** -/
theorem Scans.nests_size (h : Scans alphabet position cs ls) (hq : Nests ls q) :
    q.query.utf8ByteSize + 2 ≤ byteLength cs := by
  induction h with
  | nil position =>
      obtain ⟨c, hc, -⟩ := hq
      cases hc
  | blank _ _ ih =>
      have hsize := ih hq
      rw [byteLength]
      omega
  | group _ _ _ ihinner ihrest =>
      simp only [byteLength, Text.byteLength_append]
      rcases nests_append.mp hq with hinner | hrest
      · have hsize := ihinner (nests_grouped.mp hinner)
        omega
      · have hsize := ihrest hrest
        omega
  | @single _ _ _ _ l ls _ hfinds _ ih =>
      rw [← List.singleton_append] at hq
      rcases nests_append.mp hq with hfirst | hrest
      · exact hfinds.nests_size hfirst
      · obtain ⟨piece, -, htext, -⟩ := hfinds.exists_piece
        have hsize := ih hrest
        rw [htext, Text.byteLength_append]
        omega

/-- **A nested query is shorter than its text** by two bytes at least. -/
theorem nests_size {text : String} (h : scan alphabet text = .ok ls) (hq : Nests ls q) :
    q.query.utf8ByteSize + 2 ≤ text.utf8ByteSize := by
  rw [← Text.byteLength_toList text]
  exact (scans_of_scan h).nests_size hq

/-- A block for a lexeme is read as one, being no combinator. -/
theorem Finds.isNested {block : NestedBlock} {l : Lexeme}
    (h : Finds alphabet position cs l behind) (hl : l = .nested block) :
    combinator? cs = none ∧ block? position cs = .ok (some (block, behind)) := by
  cases h with
  | combinator h => rcases combinator?_kind h with rfl | rfl | rfl <;> cases hl
  | nested hcombinator h =>
      cases hl
      exact ⟨hcombinator, h⟩
  | filter _ _ h =>
      obtain ⟨f, found, rfl⟩ := (filter?_takes h).2
      cases hl
  | toggle _ _ _ h =>
      obtain ⟨name, rfl⟩ := toggle?_kind h
      cases hl
  | comment _ _ _ _ h =>
      obtain ⟨text, rfl⟩ := comment?_kind h
      cases hl
  | word _ _ _ _ _ h =>
      obtain ⟨w, rfl⟩ := word?_kind h
      cases hl

/-- A block that is all of a text ends where the text does, but for vacant
text. -/
theorem Scans.block?_eq {block : NestedBlock} {c : Char} (hc : c ≠ '(' ∧ isBlank c = false)
    (h : Scans alphabet position (c :: cs) [.nested block]) :
    ∃ behind, block? position (c :: cs) = .ok (some (block, behind)) ∧ IsVacant behind := by
  generalize htext : c :: cs = text at h
  generalize hls : [Lexeme.nested block] = ls at h
  cases h with
  | nil position => cases htext
  | blank hblank _ =>
      cases htext
      exact absurd (hc.2.symm.trans hblank) (by decide)
  | group _ _ _ =>
      cases htext
      exact absurd rfl hc.1
  | single _ hfinds hrest =>
      obtain ⟨rfl, rfl⟩ := List.cons.inj hls
      exact ⟨_, (hfinds.isNested rfl).2, hrest.isVacant rfl⟩

/-- A nested query that is all of a text is what its braces enclose, without
blanks at the ends. -/
theorem query_of_braced {text : String} {block : NestedBlock}
    (h : scan alphabet (Text.braced text) = .ok [.nested block]) :
    block.aggregator = none ∧ block.query = Text.trim text := by
  have hchars : (Text.braced text).toList = '\x7b' :: (text.toList ++ ['\x7d']) := by
    simp [Text.braced]
  have hscans := scans_of_scan h
  rw [hchars] at hscans
  obtain ⟨behind, hblock, hvacant⟩ := hscans.block?_eq (by decide)
  obtain ⟨inside, last, hbraces, haggregator, hquery⟩ := block?_braces hblock
  have htext : text.toList ++ ['\x7d'] = inside ++ last :: behind := List.cons.inj hbraces |>.2
  -- The last character closes the braces, for it is not vacant.
  rcases List.eq_nil_or_concat behind with rfl | ⟨more, c, rfl⟩
  · obtain ⟨hinside, -⟩ := List.append_inj' htext rfl
    refine ⟨haggregator rfl, ?_⟩
    rw [hquery, ← hinside]
    rfl
  · exfalso
    rw [List.concat_eq_append] at htext hvacant
    rw [← List.cons_append, ← List.append_assoc] at htext
    obtain ⟨-, hlast⟩ := List.append_inj' htext rfl
    obtain rfl : '\x7d' = c := List.singleton_inj.mp hlast
    rcases hvacant.mem_cases (List.mem_append_right more List.mem_cons_self) with h | h | h
    · exact absurd h (by decide)
    · exact absurd h (by decide)
    · exact absurd h (by decide)

end Lexeme

end FilterQuery
