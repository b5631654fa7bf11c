import FilterQuery.Proofs.Occurrences
import FilterQuery.Proofs.PairedText
import FilterQuery.Proofs.Registration
import FilterQuery.Proofs.Shifting
import FilterQuery.Proofs.Tiling
import FilterQuery.Proofs.Trimming

/-!
# Texts in parentheses

The rules of the scanner and the count for the closing parenthesis read a text
in two ways.  To the rules a quote or a brace within a value without quotes, or
within a parameter, is a character like any other; to the count it opens
something.  So a text in parentheses is the group of its lexemes exactly if its
delimiters pair up for the count too, and they do unless such a value or
parameter outside of the groups, or a comment, holds a quote or an opening
brace.
-/

namespace FilterQuery

open Text (byteLength isBlank)

namespace Lexeme

variable {alphabet : List String} {position : Nat} {cs behind : List Char}

/-- To the count, nothing opens within these characters but parentheses. -/
def OpensNothing (cs : List Char) : Prop := ∀ c ∈ cs, c ≠ '"' ∧ c ≠ '\x7b'

/-- What may be any text in the filter, but for blanks and parentheses, holds
neither quotes nor opening braces. -/
structure IsTame (f : FilterExpression) (block : Option NestedBlock) : Prop where
  param : ∀ text, f.param = some text → OpensNothing text.toList
  value : f.quoted = false → block = none → OpensNothing f.value.toList

/-- Characters of a class without delimiters pair up. -/
theorem isPaired_of_forall {p : Char → Bool}
    (hp : p '"' = false ∧ p '\x7b' = false ∧ p '(' = false ∧ p ')' = false)
    (h : ∀ c ∈ cs, p c = true) : IsPaired cs := by
  refine .of_plain fun c hc => ⟨?_, ?_, ?_, ?_⟩
  · rintro rfl
    exact Bool.noConfusion ((h _ hc).symm.trans hp.1)
  · rintro rfl
    exact Bool.noConfusion ((h _ hc).symm.trans hp.2.1)
  · rintro rfl
    exact Bool.noConfusion ((h _ hc).symm.trans hp.2.2.1)
  · rintro rfl
    exact Bool.noConfusion ((h _ hc).symm.trans hp.2.2.2)

/-- Characters that open and close nothing pair up. -/
theorem isPaired_takeWhile {p : Char → Bool}
    (hp : p '"' = false ∧ p '\x7b' = false ∧ p '(' = false ∧ p ')' = false) (cs : List Char) :
    IsPaired (cs.takeWhile p) :=
  isPaired_of_forall hp fun _ => List.mem_takeWhile_imp

/-- A combinator pairs up. -/
theorem combinator?_isPaired {kind : Token → Lexeme} (h : combinator? cs = some (kind, behind)) :
    ∃ piece, cs = piece ++ behind ∧ IsPaired piece := by
  unfold combinator? at h
  split at h
  · split at h
    · cases h
    · cases h
      exact ⟨['-'], rfl, .plain (by decide) .nil⟩
  · dsimp only at h
    split at h
    · split at h
      · cases h
        exact ⟨_, List.takeWhile_append_dropWhile.symm, isPaired_takeWhile (by decide) _⟩
      · cases h
    · cases h

/-- A nested query pairs up. -/
theorem block?_isPaired {block : NestedBlock}
    (h : block? position cs = .ok (some (block, behind))) :
    ∃ piece, cs = piece ++ behind ∧ IsPaired piece := by
  obtain ⟨inside, hbrace, hfound, -⟩ := block?_eq_found.mp h
  obtain ⟨rest, hrest⟩ := List.head?_eq_some_iff.mp hbrace
  rw [hrest] at hfound
  obtain ⟨rfl, hinside⟩ := delimited?_brace_iff.mp hfound
  have hname : IsPaired (cs.takeWhile isAggregatorChar) := isPaired_takeWhile (by decide +kernel) _
  refine ⟨cs.takeWhile isAggregatorChar ++ '\x7b' :: (inside ++ ['\x7d']), ?_,
    hname.append (.braced hinside .nil)⟩
  have htext := List.takeWhile_append_dropWhile (p := isAggregatorChar) (l := cs)
  rw [hrest] at htext
  simpa using htext.symm

/-- A toggle pairs up. -/
theorem toggle?_isPaired {kind : Token → Lexeme} (h : toggle? cs = some (kind, behind)) :
    ∃ piece, cs = piece ++ behind ∧ IsPaired piece := by
  unfold toggle? at h
  split at h
  · next rest =>
      dsimp only at h
      split at h
      · cases h
      · cases h
        refine ⟨'+' :: rest.takeWhile fun c => isNameChar c || c = '-', ?_,
          .plain (by decide) (isPaired_takeWhile (by decide +kernel) _)⟩
        rw [List.cons_append, List.takeWhile_append_dropWhile]
  · cases h

/-- In front of a quote that is found there is none. -/
theorem splitAtQuote?_not_mem {text : List Char} (h : splitAtQuote? cs = some (text, behind)) :
    '"' ∉ text := by
  induction cs generalizing text with
  | nil => cases h
  | cons c cs ih =>
      rw [splitAtQuote?] at h
      split at h
      · cases h
        exact List.not_mem_nil
      · next hquote =>
          obtain ⟨found, hfound, heq⟩ := Option.map_eq_some_iff.mp h
          cases heq
          rw [List.mem_cons, not_or]
          exact ⟨Ne.symm hquote, ih hfound⟩

/-- Quoted text pairs up. -/
theorem splitAtQuote?_isPaired {text : List Char} (h : splitAtQuote? cs = some (text, behind)) :
    ∃ piece, '"' :: cs = piece ++ behind ∧ IsPaired piece := by
  have htext : '"' ∉ text := splitAtQuote?_not_mem h
  refine ⟨'"' :: (text ++ ['"']), ?_, .quoted htext .nil⟩
  rw [splitAtQuote?_eq_some h]
  simp

/-- A word pairs up. -/
theorem word?_isPaired {kind : Token → Lexeme} (h : word? position cs = .ok (some (kind, behind))) :
    ∃ piece, cs = piece ++ behind ∧ IsPaired piece := by
  unfold word? at h
  split at h
  next exact body hstart =>
  -- The mark of an exact word in front of the others.
  have hmark : ∃ mark, cs = mark ++ body ∧ IsPaired mark := by
    split at hstart
    · cases hstart
      exact ⟨['!'], rfl, .plain (by decide) .nil⟩
    · cases hstart
      exact ⟨[], rfl, .nil⟩
  obtain ⟨mark, rfl, hmark⟩ := hmark
  have hbody : ∃ piece, body = piece ++ behind ∧ IsPaired piece := by
    split at h
    · split at h
      · next hquote =>
          cases h
          exact splitAtQuote?_isPaired hquote
      · cases h
    · have hword : ∃ piece, body = piece ++ body.dropWhile isWordChar ∧ IsPaired piece :=
        ⟨_, List.takeWhile_append_dropWhile.symm, isPaired_takeWhile (by decide +kernel) _⟩
      dsimp only at h
      split at h
      · cases h
        exact hword
      · split at h
        · cases h
          exact hword
        · cases h
  obtain ⟨piece, rfl, hpiece⟩ := hbody
  exact ⟨mark ++ piece, by simp, hmark.append hpiece⟩

/-- The value of a filter pairs up if it opens nothing. -/
theorem filterValue_isPaired {value : FilterValue}
    (h : filterValue position cs = .ok (value, behind))
    (htame : value.quoted = false → value.block = none → OpensNothing value.text.toList) :
    ∃ piece, cs = piece ++ behind ∧ IsPaired piece := by
  unfold filterValue at h
  split at h
  · split at h
    · next hquote =>
        cases h
        exact splitAtQuote?_isPaired hquote
    · cases h
  · obtain hnone | ⟨block, rest, hfound⟩ | ⟨e, herror⟩ := scanned_cases (block? position cs)
    · rw [hnone] at h
      cases h
      have hvalue := htame rfl rfl
      rw [String.toList_ofList] at hvalue
      refine ⟨_, List.takeWhile_append_dropWhile.symm, .of_plain fun c hc => ?_⟩
      have hchar := List.mem_takeWhile_imp hc
      simp only [isValueChar, Bool.and_eq_true, decide_eq_true_eq] at hchar
      exact ⟨(hvalue c hc).1, (hvalue c hc).2, hchar.1.2, hchar.2⟩
    · rw [hfound] at h
      cases h
      exact block?_isPaired hfound
    · rw [herror] at h
      cases h

/-- A name pairs up. -/
theorem IsName.isPaired {name : List Char} (h : IsName name) : IsPaired name := by
  obtain ⟨c, tail, rfl, hc, htail⟩ := h
  have hfirst : ∀ d ∈ [c], isNameStart d = true := fun d hd => List.mem_singleton.mp hd ▸ hc
  exact (isPaired_of_forall (by decide +kernel) hfirst).append
    (isPaired_of_forall (by decide +kernel) htail)

/-- An operator pairs up. -/
theorem isPaired_of_isOperatorToken {op : String} (h : IsOperatorToken op) :
    IsPaired op.toList := by
  have hfree : ∀ c ∈ op.toList, (!Engine.isReserved c) = true := fun c hc => by
    rw [h.unreserved c hc]
    rfl
  exact isPaired_of_forall (p := fun c => !Engine.isReserved c) (by decide +kernel) hfree

/-- Trimming takes away blanks only. -/
theorem opensNothing_of_trimChars (h : OpensNothing (Text.trimChars cs)) : OpensNothing cs := by
  obtain ⟨front, back, hfront, hback, heq⟩ := Text.exists_trimChars cs
  have hblank : ∀ c, isBlank c = true → c ≠ '"' ∧ c ≠ '\x7b' := by
    intro c hc
    constructor
    · rintro rfl
      exact absurd hc (by decide +kernel)
    · rintro rfl
      exact absurd hc (by decide +kernel)
  intro c hc
  rw [heq, List.mem_append, List.mem_append] at hc
  rcases hc with hc | hc | hc
  · exact hblank c (hfront c hc)
  · exact h c hc
  · exact hblank c (hback c hc)

/-- The head of a filter pairs up if its parameter opens nothing. -/
theorem IsHead.isPaired {f : FilterExpression} {head : List Char} (hname : IsName f.name.toList)
    (hparam : ∀ text, f.param = some text → OpensNothing text.toList) (h : IsHead f head) :
    IsPaired head := by
  cases h with
  | name => exact hname.isPaired
  | @parameter inside hsome hinside =>
      have htext := hparam _ hsome
      rw [String.toList_ofList] at htext
      have hplain : IsPaired inside := by
        refine .of_plain fun c hc => ?_
        obtain ⟨hquote, hbrace⟩ := opensNothing_of_trimChars htext c hc
        exact ⟨hquote, hbrace, hinside c hc⟩
      rw [List.append_assoc]
      exact hname.isPaired.append (.group hplain .nil)

section Finds

variable (halphabet : ∀ op ∈ alphabet, IsOperatorToken op)

include halphabet

/-- A tame filter pairs up. -/
theorem IsFilter.isPaired {f : FilterExpression} {value : FilterValue} {head rest : List Char}
    (htame : IsTame f value.block) (h : IsFilter alphabet cs behind f value head rest) :
    ∃ piece, cs = piece ++ behind ∧ IsPaired piece := by
  obtain ⟨place, valueText, hoperator, hvalue⟩ := h.operator
  obtain ⟨hop, hrest⟩ := operator?_eq_some hoperator
  have hbare : value.quoted = false → value.block = none → OpensNothing value.text.toList := by
    rw [← h.value.1, ← h.value.2]
    exact htame.value
  obtain ⟨piece, hpiece, hpaired⟩ := filterValue_isPaired hvalue hbare
  have hhead := h.head.isPaired h.name htame.param
  refine ⟨head ++ (f.operator.toList ++ piece), ?_,
    hhead.append ((isPaired_of_isOperatorToken (halphabet _ hop)).append hpaired)⟩
  rw [h.text, hrest, hpiece]
  simp

/-- **What a rule takes pairs up**, if it is no comment, and as a filter holds
no stray quotes and braces. -/
theorem Finds.isPaired {l : Lexeme} (hcomment : ¬ ['/', '/'] <+: cs)
    (htame : ∀ f block place, l = .filter f block place → IsTame f block)
    (h : Finds alphabet position cs l behind) : ∃ piece, cs = piece ++ behind ∧ IsPaired piece := by
  cases h with
  | combinator h => exact combinator?_isPaired h
  | nested _ h => exact block?_isPaired h
  | filter _ _ h =>
      obtain ⟨f, value, head, rest, rfl, hfilter⟩ := filter?_isFilter h
      exact hfilter.isPaired halphabet (htame f value.block _ rfl)
  | toggle _ _ _ h => exact toggle?_isPaired h
  | comment _ _ _ _ h =>
      unfold comment? at h
      split at h
      · exact absurd ⟨_, rfl⟩ hcomment
      · cases h
  | word _ _ _ _ _ h => exact word?_isPaired h

/-- **A text of tame filters without a comment pairs up.** -/
theorem Scans.isPaired {ls : List Lexeme} (h : Scans alphabet position cs ls)
    (hcomment : ¬ ['/', '/'] <:+: cs)
    (htame : ∀ f block place, .filter f block place ∈ ls → IsTame f block) : IsPaired cs := by
  induction h with
  | nil => exact .nil
  | @blank _ c cs _ hc _ ih =>
      have hblank : ∀ d ∈ [c], isBlank d = true := fun d hd => List.mem_singleton.mp hd ▸ hc
      have hrest :=
        ih (fun hinside => hcomment (hinside.trans (List.suffix_cons c cs).isInfix)) htame
      exact (isPaired_of_forall (by decide +kernel) hblank).append hrest
  | @group _ inside behind inner ls hdelimited _ _ _ ih =>
      have hsuffix : behind <:+ '(' :: (inside ++ ')' :: behind) :=
        ((List.suffix_cons ')' behind).trans (List.suffix_append inside _)).trans
          (List.suffix_cons '(' _)
      have hrest := ih (fun hinside => hcomment (hinside.trans hsuffix.isInfix))
        fun f block place hmem => htame f block place (List.mem_append_right _ hmem)
      exact .group (delimited?_parenthesis_iff.mp hdelimited).2 hrest
  | @single _ c cs behind l ls _ hfinds _ ih =>
      obtain ⟨piece, hpiece, hpaired⟩ := hfinds.isPaired halphabet
        (fun hprefix => hcomment hprefix.isInfix)
        fun f block place heq => htame f block place (heq ▸ List.mem_cons_self)
      have hsuffix : behind <:+ c :: cs := hfinds.takes.suffix
      have hrest := ih (fun hinside => hcomment (hinside.trans hsuffix.isInfix))
        fun f block place hmem => htame f block place (List.mem_cons_of_mem l hmem)
      rw [hpiece]
      exact hpaired.append hrest

end Finds

/-- The text in parentheses. -/
def parenthesized (text : String) : String := "(" ++ text ++ ")"

/-- A text in parentheses begins and ends with one. -/
theorem toList_parenthesized (text : String) :
    (parenthesized text).toList = '(' :: (text.toList ++ [')']) := by
  simp [parenthesized, String.toList_append]

/-- The group of lexemes further on, in parentheses around all of the text. -/
def wholeGroup (text : String) (ls : List Lexeme) : Lexeme :=
  .group (shiftAll 1 ls) (Token.ofChars 0 ('(' :: text.toList ++ [')']))

variable {text : String} {ls : List Lexeme}

/-- A text that pairs up is one group in parentheses. -/
theorem scan_parenthesized (hpaired : IsPaired text.toList) (hscan : scan alphabet text = .ok ls)
    (hne : ls ≠ []) : scan alphabet (parenthesized text) = .ok [wholeGroup text ls] := by
  have hfound : delimited? 0 ('(' :: (text.toList ++ [')'])) = .ok (some (text.toList, [])) :=
    delimited?_parenthesis_iff.mpr ⟨rfl, hpaired⟩
  have hinner : scanFrom alphabet ((text.toList ++ [')']).length + 1) (0 + 1) text.toList =
      .ok (shiftAll 1 ls) := by
    have hmoved := scanFrom_moved alphabet 1 ((text.toList ++ [')']).length + 1) 0 text.toList
    have hfuel : scanFrom alphabet ((text.toList ++ [')']).length + 1) 0 text.toList = .ok ls := by
      rw [← hscan, scan]
      exact scanFrom_congr (by simp; omega) (Nat.le_succ _)
    rw [hfuel] at hmoved
    generalize scanFrom alphabet _ (0 + 1) text.toList = found at hmoved ⊢
    cases hmoved with
    | ok h => rw [h]
  rw [scan, toList_parenthesized, List.length_cons, scanFrom_open hfound, hinner, scanFrom_nil]
  obtain ⟨l, more, rfl⟩ := List.exists_cons_of_ne_nil hne
  rfl

/-- A text that is one group in parentheses pairs up. -/
theorem isPaired_of_scan_parenthesized {inner : List Lexeme}
    (h : scan alphabet (parenthesized text) =
      .ok [.group inner (Token.ofChars 0 ('(' :: text.toList ++ [')']))]) :
    IsPaired text.toList := by
  have hscans := scans_of_scan h
  rw [toList_parenthesized] at hscans
  generalize hcs : '(' :: (text.toList ++ [')']) = cs at hscans
  generalize hls : [Lexeme.group inner _] = ls at hscans
  cases hscans with
  | nil => cases hcs
  | blank hc =>
      obtain ⟨rfl, -⟩ := List.cons.inj hcs
      exact absurd hc (by decide +kernel)
  | single hc => exact absurd (List.cons.inj hcs).1.symm hc.2.1
  | @group _ inside behind found ls hdelimited hinner hrest =>
      have hpaired : IsPaired inside := (delimited?_parenthesis_iff.mp hdelimited).2
      cases found with
      | nil =>
          -- The group would stand behind the first parenthesis, but its token begins there.
          have htiles : Tiles (String.ofList ('(' :: (inside ++ ')' :: behind))) _ _ ls :=
            hrest.tiles ('(' :: inside ++ [')']) [] [] (by simp) .nil (by simp)
          have hwithin := htiles.level.within (Lexeme.group inner _) (hls ▸ List.mem_cons_self)
          have hpositive : 0 < byteLength ('(' :: inside ++ [')']) :=
            Nat.lt_of_lt_of_le (by simp) (Text.length_le_byteLength _)
          exact absurd hwithin.1 (Nat.not_le_of_gt hpositive)
      | cons l found =>
          have htoken := congrArg (fun m => m.token.text) (List.cons.inj hls).1
          have hchars := String.ofList_injective htoken
          have hinside : text.toList = inside := by simpa using hchars
          rwa [hinside]

end Lexeme

namespace Engine

open Lexeme

variable {α : Type}

/-- **Parentheses around a text give the group of its lexemes exactly if the
delimiters in it pair up.**  They do if there is no comment in the text, and no
filter outside of its groups holds a quote or an opening brace in its parameter
or in a value without quotes. -/
theorem parenthesized_text_is_a_group {engine : Engine α} (hengine : engine.Reachable)
    {text : String} {ls : List Lexeme} (hscan : scan engine.alphabet text = .ok ls)
    (hne : ls ≠ []) :
    (scan engine.alphabet (parenthesized text) = .ok [wholeGroup text ls] ↔
        IsPaired text.toList) ∧
      (¬ ['/', '/'] <:+: text.toList →
        (∀ f block place, .filter f block place ∈ ls → IsTame f block) →
        IsPaired text.toList) := by
  refine ⟨⟨isPaired_of_scan_parenthesized, fun h => scan_parenthesized h hscan hne⟩, ?_⟩
  intro hcomment htame
  exact (scans_of_scan hscan).isPaired (fun _ => hengine.isOperatorToken) hcomment htame

/-- The quotes in `a=x}y (b:"(")` are around a value, and its brace opens
nothing. -/
theorem group_of_two_operands :
    let ls : List Lexeme :=
      [.filter { name := "a", operator := "=", value := "x\x7dy" } none ⟨"a=x\x7dy", 0, 5⟩,
        .group [.filter { name := "b", operator := ":", value := "(", quoted := true } none
          ⟨"b:\"(\"", 7, 5⟩] ⟨"(b:\"(\")", 6, 7⟩]
    scan ({} : Engine Nat).alphabet "a=x\x7dy (b:\"(\")" = .ok ls ∧
      scan ({} : Engine Nat).alphabet (parenthesized "a=x\x7dy (b:\"(\")") =
        .ok [wholeGroup "a=x\x7dy (b:\"(\")" ls] := by
  intro ls
  have hscan : scan ({} : Engine Nat).alphabet "a=x\x7dy (b:\"(\")" = .ok ls := rfl
  obtain ⟨hgroup, hpaired⟩ := parenthesized_text_is_a_group .new hscan (List.cons_ne_nil _ _)
  refine ⟨hscan, hgroup.mpr (hpaired (by decide) fun f block place hmem => ?_)⟩
  -- The only filter outside of the group has no parameter.
  rcases List.mem_cons.mp hmem with heq | hmem
  · cases heq
    exact ⟨nofun, fun _ _ => by simp [OpensNothing]⟩
  · cases List.mem_singleton.mp hmem

/-- The quote in `a=x"y` is a character of the value, but within parentheses it
is left open. -/
theorem quote_in_a_bare_value :
    scan ({} : Engine Nat).alphabet "a=x\"y" =
        .ok [.filter { name := "a", operator := "=", value := "x\"y" } none ⟨"a=x\"y", 0, 5⟩] ∧
      ¬ ['/', '/'] <:+: "a=x\"y".toList ∧
      scan ({} : Engine Nat).alphabet (parenthesized "a=x\"y") =
        .error ⟨.unterminatedPhrase, 4, 3⟩ :=
  ⟨rfl, by decide, rfl⟩

end Engine

end FilterQuery
