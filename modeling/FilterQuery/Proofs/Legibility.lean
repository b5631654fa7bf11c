import FilterQuery.Graph.Rendering
import FilterQuery.Proofs.Trimming
import FilterQuery.Proofs.Occurrences

/-!
# Texts that can be read back

A rendering writes names, operators, values and nested queries as they stand in
the query, one right behind the other.  Each of them ends where something stands
that it cannot go on with: a name at the first character that no name has, an
operator where no registered one goes on, a nested query at the brace that
closes it, and quoted text, which is escaped, at the next quote.  So two
renderings that begin with the same characters begin with the same piece.
-/

namespace FilterQuery

open Text (isBlank trimChars)

/-- The text does not go on with such a character. -/
def Stops (p : Char → Bool) (rest : List Char) : Prop := ∀ c ∈ rest.head?, p c = false

variable {cs ds rest rest' : List Char}

/-- A text that begins with another character does not go on with one of the
sort. -/
theorem stops_cons {p : Char → Bool} {c : Char} (h : p c = false) (cs : List Char) :
    Stops p (c :: cs) := by
  intro d hd
  obtain rfl := Option.some.inj hd
  exact h

/-- The row of such characters at the front of a text ends with the text. -/
theorem Stops.takeWhile_of_append {p : Char → Bool} (h : Stops p rest) (cs : List Char) :
    (cs ++ rest).takeWhile p = cs.takeWhile p := by
  induction cs with
  | nil =>
      cases rest with
      | nil => rfl
      | cons c rest => exact List.takeWhile_cons_of_neg (by simp [h c rfl])
  | cons c cs ih =>
      rw [List.cons_append, List.takeWhile_cons, List.takeWhile_cons, ih]

/-- Characters of a sort are taken up to where the text stops having them. -/
theorem Stops.takeWhile_append {p : Char → Bool} (h : Stops p rest)
    (hcs : ∀ c ∈ cs, p c = true) : (cs ++ rest).takeWhile p = cs := by
  rw [h.takeWhile_of_append, List.takeWhile_eq_self_iff.mpr hcs]

/-- Behind characters of a sort the text goes on where it stops having them. -/
theorem Stops.dropWhile_append {p : Char → Bool} (h : Stops p rest)
    (hcs : ∀ c ∈ cs, p c = true) : (cs ++ rest).dropWhile p = rest := by
  have hwhole := List.takeWhile_append_dropWhile (p := p) (l := cs ++ rest)
  rw [h.takeWhile_append hcs] at hwhole
  exact List.append_cancel_left hwhole

/-- **A word ends at the first character that it cannot have.** -/
theorem Stops.word_unique {p : Char → Bool} (h : Stops p rest) (h' : Stops p rest')
    (hcs : ∀ c ∈ cs, p c = true) (hds : ∀ d ∈ ds, p d = true)
    (heq : cs ++ rest = ds ++ rest') : cs = ds ∧ rest = rest' := by
  have hwords := congrArg (List.takeWhile p) heq
  rw [h.takeWhile_append hcs, h'.takeWhile_append hds] at hwords
  exact ⟨hwords, List.append_cancel_left (hwords ▸ heq)⟩

/-- A word in front of one and the same character that it cannot have. -/
theorem word_before_unique {p : Char → Bool} {c : Char} (hc : p c = false)
    (hcs : ∀ c ∈ cs, p c = true) (hds : ∀ d ∈ ds, p d = true)
    (heq : cs ++ c :: rest = ds ++ c :: rest') : cs = ds ∧ rest = rest' := by
  obtain ⟨hwords, hmore⟩ := (stops_cons hc rest).word_unique (stops_cons hc rest') hcs hds heq
  exact ⟨hwords, (List.cons.inj hmore).2⟩

namespace Text

/-- The digits of numbers to the base sixteen. -/
def hexDigits : List Char :=
  ['0', '1', '2', '3', '4', '5', '6', '7', '8', '9', 'a', 'b', 'c', 'd', 'e', 'f']

/-- The number that digits stand for. -/
def hexNumber (digits : List Char) : Nat :=
  digits.foldl (fun n c => 16 * n + hexDigits.idxOf c) 0

/-- A digit stands in the row of digits where its number says. -/
theorem digitChar_mem {n : Nat} (h : n < 16) :
    n.digitChar ∈ hexDigits ∧ hexDigits.idxOf n.digitChar = n := by
  have hall : ∀ m : Fin 16,
      m.val.digitChar ∈ hexDigits ∧ hexDigits.idxOf m.val.digitChar = m.val := by decide
  exact hall ⟨n, h⟩

/-- A number to the base sixteen is written in its digits. -/
theorem mem_toDigits {n : Nat} : ∀ c ∈ Nat.toDigits 16 n, c ∈ hexDigits := by
  induction n using Nat.strongRecOn with
  | _ n ih =>
      rw [Nat.toDigits_eq_if (by decide)]
      split
      · next hsmall => simpa using (digitChar_mem hsmall).1
      · next hlarge =>
          have hlast := (digitChar_mem (Nat.mod_lt n (show 0 < 16 by decide))).1
          intro c hc
          rcases List.mem_append.mp hc with hc | hc
          · exact ih (n / 16) (by omega) c hc
          · rwa [List.mem_singleton.mp hc]

/-- A number is read back from its digits. -/
theorem hexNumber_toDigits (n : Nat) : hexNumber (Nat.toDigits 16 n) = n := by
  induction n using Nat.strongRecOn with
  | _ n ih =>
      rw [Nat.toDigits_eq_if (by decide)]
      split
      · next hsmall => simp [hexNumber, (digitChar_mem hsmall).2]
      · next hlarge =>
          have hlast := (digitChar_mem (Nat.mod_lt n (show 0 < 16 by decide))).2
          have hfront : hexNumber (Nat.toDigits 16 (n / 16)) = n / 16 := ih _ (by omega)
          rw [hexNumber, List.foldl_append, ← hexNumber, hfront, List.foldl_cons, List.foldl_nil,
            hlast]
          omega

/-- Reads one character of quoted text; the quote that ends it is none. -/
def unescape? : List Char → Option (Char × List Char)
  | '\\' :: '0' :: rest => some ('\x00', rest)
  | '\\' :: 't' :: rest => some ('\t', rest)
  | '\\' :: 'r' :: rest => some ('\r', rest)
  | '\\' :: 'n' :: rest => some ('\n', rest)
  | '\\' :: 'u' :: rest =>
    some (Char.ofNat (hexNumber (rest.tail.takeWhile (· ∈ hexDigits))),
      (rest.tail.dropWhile (· ∈ hexDigits)).tail)
  | '\\' :: c :: rest => some (c, rest)
  | c :: rest => if c = '"' then none else some (c, rest)
  | [] => none

/-- A character that is neither a backslash nor a quote stands for itself. -/
theorem unescape?_plain {c : Char} (hslash : c ≠ '\\') (hquote : c ≠ '"') (rest : List Char) :
    unescape? (c :: rest) = some (c, rest) := by
  rw [unescape?]
  · exact if_neg hquote
  all_goals
    intros
    simp_all

/-- **An escaped character is read back.** -/
theorem unescape?_escapeChar (c : Char) (rest : List Char) :
    unescape? (escapeChar c ++ rest) = some (c, rest) := by
  unfold escapeChar
  split
  · next h => rw [h]; rfl
  split
  · next h => rw [h]; rfl
  split
  · next h => rw [h]; rfl
  split
  · next h => rw [h]; rfl
  split
  · next h =>
      rcases (by simpa using h : c = '\\' ∨ c = '"') with rfl | rfl
      · rfl
      · rfl
  · next h =>
      have hplain : c ≠ '\\' ∧ c ≠ '"' := by simpa using h
      split
      · exact unescape?_plain hplain.1 hplain.2 rest
      · -- The number of the character ends at the brace behind it, which is no digit.
        have hdigits : ∀ d ∈ Nat.toDigits 16 c.toNat, decide (d ∈ hexDigits) = true :=
          fun d hd => decide_eq_true (mem_toDigits d hd)
        have hstop : Stops (fun d => decide (d ∈ hexDigits)) ('\x7d' :: rest) :=
          stops_cons (by decide) rest
        have htake := hstop.takeWhile_append hdigits
        have hdrop : (Nat.toDigits 16 c.toNat ++ '\x7d' :: rest).dropWhile (· ∈ hexDigits) =
            '\x7d' :: rest := by
          rw [List.dropWhile_append_of_pos hdigits]
          exact List.dropWhile_cons_of_neg (by decide)
        have htext : ['\\', 'u', '\x7b'] ++ Nat.toDigits 16 c.toNat ++ ['\x7d'] ++ rest =
            '\\' :: 'u' :: '\x7b' :: (Nat.toDigits 16 c.toNat ++ '\x7d' :: rest) := by simp
        rw [htext, unescape?, List.tail_cons, htake, hdrop, hexNumber_toDigits, Char.ofNat_toNat]
        rfl

/-- **Quoted text ends at the next quote**, for the quotes in it are escaped. -/
theorem escaped_unique
    (h : cs.flatMap escapeChar ++ '"' :: rest = ds.flatMap escapeChar ++ '"' :: rest') :
    cs = ds ∧ rest = rest' := by
  induction cs generalizing ds with
  | nil =>
      cases ds with
      | nil => exact ⟨rfl, (List.cons.inj h).2⟩
      | cons d ds =>
          rw [List.flatMap_cons, List.append_assoc] at h
          have hread := congrArg unescape? h
          rw [unescape?_escapeChar] at hread
          cases hread
  | cons c cs ih =>
      rw [List.flatMap_cons, List.append_assoc] at h
      have hread := congrArg unescape? h
      rw [unescape?_escapeChar] at hread
      cases ds with
      | nil => cases hread
      | cons d ds =>
          rw [List.flatMap_cons, List.append_assoc, unescape?_escapeChar, Option.some.injEq,
            Prod.mk.injEq] at hread
          obtain ⟨rfl, rfl⟩ := ih hread.2
          exact ⟨by rw [hread.1], rfl⟩

/-- Quoted text stands between quotes, its characters escaped one by one. -/
theorem toList_quoted (text : String) :
    (quoted text).toList = '"' :: (text.toList.flatMap escapeChar ++ ['"']) :=
  String.toList_ofList

/-- Quoted text can be told from what is behind it. -/
theorem quoted_unique {text text' : String}
    (h : (quoted text).toList ++ rest = (quoted text').toList ++ rest') :
    text = text' ∧ rest = rest' := by
  rw [toList_quoted, toList_quoted] at h
  simp only [List.cons_append, List.append_assoc, List.nil_append, List.cons.injEq, true_and] at h
  obtain ⟨htext, hrest⟩ := escaped_unique h
  exact ⟨String.toList_inj.mp htext, hrest⟩

end Text

/-- What is open behind characters, and whether a quote is: nothing if they
close everything. -/
def within : Depth → Bool → List Char → Option (Depth × Bool)
  | depth, quoted, [] => some (depth, quoted)
  | depth, true, c :: cs => within depth (c ≠ '"') cs
  | depth, false, c :: cs =>
    if c = '"' then within depth true cs
    else if depth.step c = {} then none
    else within (depth.step c) false cs

/-- What is open behind characters depends on what was open before them. -/
theorem within_append (depth : Depth) (quoted : Bool) (cs ds : List Char) :
    within depth quoted (cs ++ ds) =
      (within depth quoted cs).bind fun state => within state.1 state.2 ds := by
  induction cs generalizing depth quoted with
  | nil => rfl
  | cons c cs ih =>
      cases quoted with
      | true =>
          rw [List.cons_append, within, within]
          exact ih depth _
      | false =>
          rw [List.cons_append, within, within]
          split
          · exact ih depth true
          · split
            · rfl
            · exact ih (depth.step c) false

/-- Blanks open and close nothing. -/
theorem within_blanks {depth : Depth} (hopen : depth ≠ {}) (quoted : Bool) (h : AllBlank cs) :
    within depth quoted cs = some (depth, quoted) := by
  induction cs with
  | nil => rfl
  | cons c cs ih =>
      have hblank : isBlank c = true := h c List.mem_cons_self
      have hstep := Depth.step_of_plain (isPlain_of_isBlank hblank) depth
      have hquote : c ≠ '"' := by
        rintro rfl
        exact absurd hblank (by decide)
      have hcs := ih fun d hd => h d (List.mem_cons_of_mem c hd)
      cases quoted with
      | true =>
          rw [within, decide_eq_true hquote]
          exact hcs
      | false =>
          rw [within, if_neg hquote, hstep, if_neg hopen]
          exact hcs

/-- A brace is open and no parenthesis. -/
def Depth.InBraces (depth : Depth) : Prop := depth.parentheses = 0 ∧ 0 < depth.braces

/-- Where a brace is open something is. -/
theorem Depth.InBraces.ne_empty {depth : Depth} (h : depth.InBraces) : depth ≠ {} := by
  rintro rfl
  exact absurd h.2 (by decide)

/-- Only a brace closes the last one that is open. -/
theorem Depth.InBraces.step {depth : Depth} (h : depth.InBraces) (c : Char) :
    (depth.step c).InBraces ∨ depth.step c = {} ∧ depth = { braces := 1 } ∧ c = '\x7d' := by
  obtain ⟨parentheses, braces⟩ := depth
  obtain ⟨hparentheses, hbraces⟩ := h
  dsimp only at hparentheses hbraces
  subst hparentheses
  unfold Depth.step
  dsimp only
  rw [if_pos hbraces]
  split
  · exact .inl ⟨rfl, Nat.succ_pos _⟩
  split
  · next hclose =>
      by_cases hone : braces = 1
      · subst hone
        exact .inr ⟨rfl, rfl, hclose⟩
      · exact .inl ⟨rfl, by dsimp only; omega⟩
  · exact .inl ⟨rfl, hbraces⟩

/-- What stands in braces keeps to them. -/
theorem Depth.InBraces.within {depth depth' : Depth} {quoted quoted' : Bool} (h : depth.InBraces)
    (hwithin : within depth quoted cs = some (depth', quoted')) : depth'.InBraces := by
  induction cs generalizing depth quoted with
  | nil =>
      cases hwithin
      exact h
  | cons c cs ih =>
      cases quoted with
      | true => exact ih h hwithin
      | false =>
          rw [FilterQuery.within] at hwithin
          split at hwithin
          · exact ih h hwithin
          · split at hwithin
            · cases hwithin
            · next hopen =>
                exact ih ((h.step c).resolve_right fun hclosed => hopen hclosed.1) hwithin

/-- Blanks at the ends of text in braces do not matter. -/
theorem within_trimChars {depth depth' : Depth} (hdepth : depth.InBraces)
    (h : within depth false cs = some (depth', false)) :
    within depth false (trimChars cs) = some (depth', false) := by
  obtain ⟨front, behind, hfront, hbehind, htext⟩ := Text.exists_trimChars cs
  rw [htext, within_append, within_blanks hdepth.ne_empty false hfront, Option.bind_some,
    within_append] at h
  obtain ⟨⟨between, quoted⟩, htrim, hrest⟩ := Option.bind_eq_some_iff.mp h
  rw [within_blanks (hdepth.within htrim).ne_empty quoted hbehind] at hrest
  rw [htrim, hrest]

/-- What closes everything comes behind text that does not. -/
theorem Closes.within {depth : Depth} {quoted : Bool} {taken : List Char}
    (h : Closes depth quoted cs taken rest) :
    ∃ inside last depth', taken = inside ++ [last] ∧
      within depth quoted inside = some (depth', false) ∧ last ≠ '"' ∧
      depth'.step last = {} := by
  induction h with
  | @quoted depth c cs taken rest _ ih =>
      obtain ⟨inside, last, depth', rfl, hwithin, hlast⟩ := ih
      exact ⟨c :: inside, last, depth', rfl, hwithin, hlast⟩
  | @quote depth cs taken rest _ _ ih =>
      obtain ⟨inside, last, depth', rfl, hwithin, hlast⟩ := ih
      exact ⟨'"' :: inside, last, depth', rfl, hwithin, hlast⟩
  | @next depth c cs taken rest hc hopen _ ih =>
      obtain ⟨inside, last, depth', rfl, hwithin, hlast⟩ := ih
      refine ⟨c :: inside, last, depth', rfl, ?_, hlast⟩
      rw [FilterQuery.within, if_neg hc, if_neg hopen, hwithin]
  | @last depth c hc hclosed rest => exact ⟨[], c, depth, rfl, rfl, hc, hclosed⟩

/-- Quoted text goes on up to a quote. -/
theorem quote_mem_of_within {depth depth' : Depth}
    (h : within depth true cs = some (depth', false)) : '"' ∈ cs := by
  induction cs with
  | nil => cases h
  | cons c cs ih =>
      by_cases hquote : c = '"'
      · rw [hquote]
        exact List.mem_cons_self
      · rw [within, decide_eq_true hquote] at h
        exact List.mem_cons_of_mem c (ih h)

/-- The character that closes the last one open closes the text. -/
theorem closes_of_within {depth depth' : Depth} {quoted : Bool} {last : Char}
    (h : within depth quoted cs = some (depth', false)) (hlast : last ≠ '"')
    (hclosed : depth'.step last = {}) (rest : List Char) :
    Closes depth quoted (cs ++ last :: rest) (cs ++ [last]) rest := by
  induction cs generalizing depth quoted with
  | nil =>
      cases h
      exact .last hlast hclosed rest
  | cons c cs ih =>
      cases quoted with
      | true => exact .quoted (ih h)
      | false =>
          rw [within] at h
          split at h
          · next hquote =>
              rw [hquote]
              exact .quote (List.mem_append_left _ (quote_mem_of_within h)) (ih h)
          · next hquote =>
              split at h
              · cases h
              · next hopen => exact .next hquote hopen (ih h)

/-- The characters close the braces and the quotes that they open, and no
others. -/
def IsEnclosed (cs : List Char) : Prop :=
  within { braces := 1 } false cs = some ({ braces := 1 }, false)

theorem IsEnclosed.trimChars (h : IsEnclosed cs) : IsEnclosed (Text.trimChars cs) :=
  within_trimChars ⟨rfl, Nat.one_pos⟩ h

/-- What a brace encloses closes what it opens. -/
theorem isEnclosed_of_delimited {position : Nat} {inside behind : List Char}
    (h : delimited? position ('\x7b' :: cs) = .ok (some (inside, behind))) : IsEnclosed inside := by
  have hbraces : Depth.InBraces { braces := 1 } := ⟨rfl, Nat.one_pos⟩
  obtain ⟨taken, htaken, rfl⟩ := delimited?_eq_found.mp h
  cases htaken with
  | last _ hclosed _ => cases hclosed
  | @next _ _ _ taken _ _ _ htaken =>
      obtain ⟨inside, last, depth, rfl, hwithin, -, hclosed⟩ := htaken.within
      -- Nothing is open behind the last character, so that it is the brace of the first.
      have hdepth : depth = { braces := 1 } := by
        rcases (hbraces.within hwithin).step last with hopen | ⟨-, hdepth, -⟩
        · exact absurd hclosed hopen.ne_empty
        · exact hdepth
      rw [List.tail_cons, List.dropLast_concat]
      rwa [hdepth] at hwithin

/-- **A brace in front of the characters is closed by the one behind them.** -/
theorem IsEnclosed.delimited? (h : IsEnclosed cs) (position : Nat) (rest : List Char) :
    delimited? position ('\x7b' :: (cs ++ '\x7d' :: rest)) = .ok (some (cs, rest)) := by
  have hcloses : Closes { braces := 1 } false (cs ++ '\x7d' :: rest) (cs ++ ['\x7d']) rest :=
    closes_of_within h (by decide) rfl rest
  refine delimited?_eq_found.mpr ⟨'\x7b' :: (cs ++ ['\x7d']), .next (by decide) nofun hcloses, ?_⟩
  rw [List.tail_cons, List.dropLast_concat]

/-- Enclosed text can be told from the brace that closes it. -/
theorem IsEnclosed.unique (h : IsEnclosed cs) (h' : IsEnclosed ds)
    (heq : cs ++ '\x7d' :: rest = ds ++ '\x7d' :: rest') : cs = ds ∧ rest = rest' := by
  have hfound := h.delimited? 0 rest
  rw [heq, h'.delimited?] at hfound
  cases hfound
  exact ⟨rfl, rfl⟩

namespace Lexeme

/-- What can be read back of the name, the parameter and the operator of a
filter. -/
structure IsLegibleHead (f : FilterExpression) : Prop where
  name : IsName f.name.toList
  parameter : ∀ p, f.param = some p → ∀ c ∈ p.toList, c ≠ ')'
  operator : f.operator.toList ≠ []
  /-- The name does not go on. -/
  ended : f.param = none → Stops (fun c => isNameChar c || c = '(') f.operator.toList

/-- The parameter of a filter in its parentheses. -/
def parameterChars : Option String → List Char
  | none => []
  | some p => '(' :: (p.toList ++ [')'])

/-- The head of a filter is rendered as its name, its parameter and its
operator. -/
theorem toList_filterHead (f : FilterExpression) :
    (Graph.filterHead f).toList =
      f.name.toList ++ (parameterChars f.param ++ f.operator.toList) := by
  rw [Graph.filterHead]
  cases f.param with
  | none => simp [parameterChars]
  | some p => simp [parameterChars]

namespace IsLegibleHead

variable {f g : FilterExpression} (hf : IsLegibleHead f) (hg : IsLegibleHead g)
include hf

/-- Behind the name of a filter there is a parenthesis or an operator. -/
theorem stops (rest : List Char) :
    Stops isNameChar (parameterChars f.param ++ (f.operator.toList ++ rest)) := by
  cases hparam : f.param with
  | some p => exact stops_cons (by decide) _
  | none =>
      intro c hc
      obtain ⟨d, more, hoperator⟩ := List.exists_cons_of_ne_nil hf.operator
      rw [hoperator] at hc
      obtain rfl := Option.some.inj hc
      have hended := hf.ended hparam d (by simp [hoperator])
      exact (Bool.or_eq_false_iff.mp hended).1

include hg

/-- The name of a filter can be told from what is behind it. -/
theorem name_unique (h : f.name.toList ++ (parameterChars f.param ++ (f.operator.toList ++ rest)) =
      g.name.toList ++ (parameterChars g.param ++ (g.operator.toList ++ rest'))) :
    f.name = g.name ∧ parameterChars f.param ++ (f.operator.toList ++ rest) =
      parameterChars g.param ++ (g.operator.toList ++ rest') := by
  obtain ⟨c, tail, hname, -, htail⟩ := hf.name
  obtain ⟨d, tail', hname', -, htail'⟩ := hg.name
  rw [hname, hname', List.cons_append, List.cons_append, List.cons.injEq] at h
  obtain ⟨rfl, hmore⟩ := h
  obtain ⟨rfl, hrest⟩ := (hf.stops rest).word_unique (hg.stops rest') htail htail' hmore
  exact ⟨String.toList_inj.mp (hname.trans hname'.symm), hrest⟩

omit hg in
/-- An operator behind a name does not begin with a parenthesis. -/
theorem ne_parenthesis (hparam : f.param = none) (more : List Char) :
    f.operator.toList ++ rest ≠ '(' :: more := by
  obtain ⟨c, tail, hoperator⟩ := List.exists_cons_of_ne_nil hf.operator
  have hended := hf.ended hparam c (by simp [hoperator])
  intro h
  rw [hoperator] at h
  obtain rfl := (List.cons.inj h).1
  cases hended

/-- The parameter of a filter can be told from what is behind it. -/
theorem parameter_unique (h : parameterChars f.param ++ (f.operator.toList ++ rest) =
      parameterChars g.param ++ (g.operator.toList ++ rest')) :
    f.param = g.param ∧ f.operator.toList ++ rest = g.operator.toList ++ rest' := by
  cases hparam : f.param with
  | none =>
      cases hparam' : g.param with
      | none =>
          rw [hparam, hparam'] at h
          exact ⟨rfl, h⟩
      | some q =>
          rw [hparam, hparam'] at h
          exact absurd h (hf.ne_parenthesis hparam _)
  | some p =>
      cases hparam' : g.param with
      | none =>
          rw [hparam, hparam'] at h
          exact absurd h.symm (hg.ne_parenthesis hparam' _)
      | some q =>
          rw [hparam, hparam', parameterChars, parameterChars] at h
          have hinside : p.toList ++ ')' :: (f.operator.toList ++ rest) =
              q.toList ++ ')' :: (g.operator.toList ++ rest') := by simpa using h
          have hclose : decide (')' ≠ ')') = false := by decide
          obtain ⟨hequal, hrest⟩ := word_before_unique hclose
            (fun c hc => decide_eq_true (hf.parameter p hparam c hc))
            (fun c hc => decide_eq_true (hg.parameter q hparam' c hc)) hinside
          exact ⟨by rw [String.toList_inj.mp hequal], hrest⟩

/-- **The name and the parameter of a filter are read back.** -/
theorem unique (h : (Graph.filterHead f).toList ++ rest = (Graph.filterHead g).toList ++ rest') :
    f.name = g.name ∧ f.param = g.param ∧
      f.operator.toList ++ rest = g.operator.toList ++ rest' := by
  rw [toList_filterHead, toList_filterHead] at h
  simp only [List.append_assoc] at h
  obtain ⟨hname, hrest⟩ := hf.name_unique hg h
  exact ⟨hname, hf.parameter_unique hg hrest⟩

end IsLegibleHead

/-- The value of a filter as it is rendered. -/
def valueChars (f : FilterExpression) : List Char :=
  (if f.quoted then Text.quoted f.value else f.value).toList

/-- What can be read back of a filter in parentheses. -/
structure IsLegibleFilter (alphabet : List String) (f : FilterExpression) : Prop
    extends IsLegibleHead f where
  longest : ∀ rest, operator? alphabet (f.operator.toList ++ (valueChars f ++ ')' :: rest)) =
    some (f.operator, valueChars f ++ ')' :: rest)
  bare : f.quoted = false → ∀ c ∈ f.value.toList, isValueChar c = true
  /-- A value that begins with a quote is quoted. -/
  opened : f.quoted = false → f.value.toList.head? ≠ some '"'

namespace IsLegibleFilter

variable {alphabet : List String} {f g : FilterExpression}

/-- The text of a filter tells whether its value is quoted. -/
theorem quoted_iff (hf : IsLegibleFilter alphabet f) (rest : List Char) :
    (valueChars f ++ ')' :: rest).head? = some '"' ↔ f.quoted = true := by
  rw [valueChars]
  cases hquoted : f.quoted with
  | true => simp [Text.toList_quoted]
  | false =>
      have hopened := hf.opened hquoted
      cases hvalue : f.value.toList with
      | nil => simp [hvalue]
      | cons c cs => simpa [hvalue] using hopened

/-- **A filter is read back.** -/
theorem unique (hf : IsLegibleFilter alphabet f) (hg : IsLegibleFilter alphabet g)
    (h : (Graph.filterHead f).toList ++ (valueChars f ++ ')' :: rest) =
      (Graph.filterHead g).toList ++ (valueChars g ++ ')' :: rest')) :
    f = g ∧ rest = rest' := by
  obtain ⟨hname, hparam, hoperator⟩ := hf.toIsLegibleHead.unique hg.toIsLegibleHead h
  have hfound := hf.longest rest
  rw [hoperator, hg.longest rest', Option.some.injEq, Prod.mk.injEq] at hfound
  obtain ⟨hop, hvalue⟩ := hfound
  -- Both values are written in one way, as their first characters agree.
  have hquoted : f.quoted = g.quoted := by
    rw [Bool.eq_iff_iff, ← hf.quoted_iff rest, ← hg.quoted_iff rest', hvalue]
  have hboth : f.value = g.value ∧ rest = rest' := by
    unfold valueChars at hvalue
    rw [hquoted] at hvalue
    cases hg' : g.quoted with
    | true =>
        rw [hg', if_pos rfl, if_pos rfl] at hvalue
        obtain ⟨hequal, hrest⟩ := Text.quoted_unique hvalue.symm
        exact ⟨hequal, (List.cons.inj hrest).2⟩
    | false =>
        rw [hg', if_neg (by decide), if_neg (by decide)] at hvalue
        obtain ⟨hequal, hrest⟩ := word_before_unique (by decide)
          (hf.bare (hquoted.trans hg')) (hg.bare hg') hvalue.symm
        exact ⟨String.toList_inj.mp hequal, hrest⟩
  obtain ⟨hvalues, hrest⟩ := hboth
  refine ⟨?_, hrest⟩
  cases f
  cases g
  simp_all

end IsLegibleFilter

end Lexeme

end FilterQuery
