import Mathlib
import FilterQuery.Plan

/-!
# Final sigmas

Ignoring case, a text contains a word if the lower-case form of the one contains
that of the other.  Almost every character has a lower-case form of its own,
whatever stands around it, so that a word which occurs in a text as it stands
occurs in it ignoring case too.  The exception is the capital sigma, whose
lower-case form is another one at the end of a word.  A sigma at an edge of the
word that is looked for may stand inside a word of the text, or the other way
round, and then the word is not found where it stands.
-/

namespace FilterQuery

namespace Text

/-- The lower-case form of a character, with those before it in reverse and
those behind it. -/
def image (before : List Char) (c : Char) (after : List Char) : List Char :=
  if c = 'Σ' then [if casedAhead before && !casedAhead after then 'ς' else 'σ']
  else if c = 'İ' then ['i', '\u0307']
  else [lowercaseChar c]

/-- The lower-case form of characters, with those before them in reverse and
those behind them. -/
def lowercaseAmid (before after : List Char) : List Char → List Char
  | [] => []
  | c :: cs => image before c (cs ++ after) ++ lowercaseAmid (c :: before) after cs

variable {before after cs ds u v : List Char} {c : Char}

/-- Characters are lowercased with those before and behind them in view. -/
theorem lowercaseFrom_append (before cs after : List Char) :
    lowercaseFrom before (cs ++ after) =
      lowercaseAmid before after cs ++ lowercaseFrom (cs.reverse ++ before) after := by
  induction cs generalizing before with
  | nil => rfl
  | cons c cs ih =>
      have hfirst : lowercaseFrom before (c :: (cs ++ after)) =
          image before c (cs ++ after) ++ lowercaseFrom (c :: before) (cs ++ after) := rfl
      rw [List.cons_append, hfirst, ih, lowercaseAmid, List.append_assoc, List.reverse_cons,
        List.append_assoc, List.singleton_append]

/-- In front of nothing characters are lowercased as they stand. -/
theorem lowercaseAmid_nil (before cs : List Char) :
    lowercaseAmid before [] cs = lowercaseFrom before cs := by
  have happend := lowercaseFrom_append before cs []
  rw [List.append_nil] at happend
  rw [happend, lowercaseFrom, List.append_nil]

/-- Characters one after the other are lowercased with the others in view. -/
theorem lowercaseAmid_append (before after cs ds : List Char) :
    lowercaseAmid before after (cs ++ ds) =
      lowercaseAmid before (ds ++ after) cs ++ lowercaseAmid (cs.reverse ++ before) after ds := by
  induction cs generalizing before with
  | nil => rfl
  | cons c cs ih =>
      rw [List.cons_append, lowercaseAmid, lowercaseAmid, ih, List.append_assoc, List.append_assoc,
        List.reverse_cons, List.append_assoc, List.singleton_append]

/-- What stands around characters does not change the length of their lower-case
form. -/
theorem length_lowercaseAmid (before after before' after' cs : List Char) :
    (lowercaseAmid before after cs).length = (lowercaseAmid before' after' cs).length := by
  induction cs generalizing before before' with
  | nil => rfl
  | cons c cs ih =>
      have himage : (image before c (cs ++ after)).length =
          (image before' c (cs ++ after')).length := by
        unfold image
        split
        · rfl
        · rfl
      rw [lowercaseAmid, lowercaseAmid, List.length_append, List.length_append, himage, ih]

/-- Marks in front do not decide whether a letter with case comes first,
anything else does. -/
theorem casedAhead_append (cs ds : List Char) :
    casedAhead (cs ++ ds) = if cs.all isCaseIgnorable then casedAhead ds else casedAhead cs := by
  induction cs with
  | nil => rfl
  | cons c cs ih =>
      cases hc : isCaseIgnorable c with
      | true =>
          have hskip : ∀ es, casedAhead (c :: es) = casedAhead es := by simp [casedAhead, hc]
          rw [List.cons_append, hskip, hskip, ih, List.all_cons, hc, Bool.true_and]
      | false =>
          rw [List.all_cons, hc, Bool.false_and, if_neg Bool.false_ne_true]
          simp [casedAhead, hc]

/-- Marks alone bring no letter with case. -/
theorem casedAhead_of_all (h : cs.all isCaseIgnorable = true) : casedAhead cs = false := by
  have happend := casedAhead_append cs []
  rwa [List.append_nil, if_pos h] at happend

/-- A capital sigma between these characters takes its form from what stands
around them: nothing but marks stands before it, and no letter with case comes
next; or a letter with case comes before it, and nothing but marks stands behind
it. -/
def IsOpenBetween (before after : List Char) : Prop :=
  before.all isCaseIgnorable = true ∧ casedAhead after = false ∨
    casedAhead before = true ∧ after.all isCaseIgnorable = true

/-- Some capital sigma of the word is open. -/
def HasOpenSigma (word : String) : Prop :=
  ∃ before after, word.toList = before ++ 'Σ' :: after ∧ IsOpenBetween before.reverse after

instance (before after : List Char) : Decidable (IsOpenBetween before after) :=
  inferInstanceAs (Decidable (_ ∨ _))

/-- Some capital sigma of the characters is open, with those before them in
reverse. -/
def hasOpenSigmaFrom (before : List Char) : List Char → Bool
  | [] => false
  | c :: cs => decide (c = 'Σ' ∧ IsOpenBetween before cs) || hasOpenSigmaFrom (c :: before) cs

/-- A capital sigma of the characters is open between those before and those
behind it. -/
theorem hasOpenSigmaFrom_iff (done cs : List Char) : hasOpenSigmaFrom done cs = true ↔
    ∃ before after, cs = before ++ 'Σ' :: after ∧ IsOpenBetween (before.reverse ++ done) after := by
  induction cs generalizing done with
  | nil => simp [hasOpenSigmaFrom]
  | cons c cs ih =>
      rw [hasOpenSigmaFrom, Bool.or_eq_true, decide_eq_true_iff, ih]
      constructor
      · rintro (⟨rfl, hopen⟩ | ⟨before, after, rfl, hopen⟩)
        · exact ⟨[], cs, rfl, hopen⟩
        · exact ⟨c :: before, after, rfl, by simpa using hopen⟩
      · rintro ⟨before, after, hcs, hopen⟩
        cases before with
        | nil =>
            obtain ⟨rfl, rfl⟩ := List.cons.inj hcs
            exact .inl ⟨rfl, hopen⟩
        | cons b before =>
            obtain ⟨rfl, rfl⟩ := List.cons.inj hcs
            exact .inr ⟨before, after, rfl, by simpa using hopen⟩

instance (word : String) : Decidable (HasOpenSigma word) :=
  decidable_of_iff (hasOpenSigmaFrom [] word.toList = true) (by
    simp only [hasOpenSigmaFrom_iff, List.append_nil, HasOpenSigma])

/-- A sigma that is not open has the same form whatever stands around. -/
theorem image_of_not_open (h : ¬ IsOpenBetween before after) (u v : List Char) :
    image (before ++ u) 'Σ' (after ++ v) = image before 'Σ' after := by
  have hform : (casedAhead (before ++ u) && !casedAhead (after ++ v)) =
      (casedAhead before && !casedAhead after) := by
    rw [casedAhead_append, casedAhead_append]
    cases hbefore : before.all isCaseIgnorable with
    | true =>
        have hafter : casedAhead after = true := by
          by_contra hnone
          exact h (.inl ⟨hbefore, by simpa using hnone⟩)
        have hmarks : after.all isCaseIgnorable ≠ true := by
          intro hall
          cases (casedAhead_of_all hall).symm.trans hafter
        simp [hmarks, hafter]
    | false =>
        cases hafter : after.all isCaseIgnorable with
        | true =>
            have hnone : casedAhead before = false := by
              by_contra hcased
              exact h (.inr ⟨by simpa using hcased, hafter⟩)
            simp [hnone]
        | false => rfl
  rw [image, image, if_pos rfl, if_pos rfl, hform]

/-- **The lower-case form of a word without an open sigma does not depend on
what is around it.** -/
theorem lowercaseAmid_of_settled {word : String} (h : ¬ HasOpenSigma word) (u v : List Char) :
    lowercaseAmid u v word.toList = lowercaseAmid [] [] word.toList := by
  suffices hrest : ∀ before cs, word.toList = before.reverse ++ cs →
      lowercaseAmid (before ++ u) v cs = lowercaseAmid (before ++ []) [] cs from hrest [] _ rfl
  intro before cs
  induction cs generalizing before with
  | nil => exact fun _ => rfl
  | cons c cs ih =>
      intro hword
      have hrest := ih (c :: before) (by simp [hword])
      have himage : image (before ++ u) c (cs ++ v) = image before c cs := by
        by_cases hc : c = 'Σ'
        · subst hc
          exact image_of_not_open (fun hopen => h ⟨_, _, hword, by rwa [List.reverse_reverse]⟩) u v
        · simp [image, hc]
      rw [lowercaseAmid, lowercaseAmid, himage, List.append_nil, List.append_nil]
      exact congrArg _ (by simpa using hrest)

/-- A sigma with another form around it gives the word another form. -/
theorem lowercaseAmid_ne {u v : List Char}
    (h : image (before.reverse ++ u) 'Σ' (after ++ v) ≠ image before.reverse 'Σ' after) :
    lowercaseAmid u v (before ++ 'Σ' :: after) ≠ lowercaseAmid [] [] (before ++ 'Σ' :: after) := by
  intro heq
  rw [lowercaseAmid_append, lowercaseAmid_append, lowercaseAmid, lowercaseAmid] at heq
  have hrest := (List.append_inj heq (length_lowercaseAmid _ _ _ _ _)).2
  have hlength : (image (before.reverse ++ u) 'Σ' (after ++ v)).length =
      (image (before.reverse ++ []) 'Σ' (after ++ [])).length := rfl
  have himage := (List.append_inj hrest hlength).1
  rw [List.append_nil, List.append_nil] at himage
  exact h himage

/-- A text contains what stands somewhere in it. -/
theorem isInfix_iff {needle text : List Char} : isInfix needle text = true ↔ needle <:+: text := by
  induction text with
  | nil => simp [isInfix]
  | cons c cs ih =>
      rw [isInfix, Bool.or_eq_true, ih, List.isPrefixOf_iff_prefix, List.infix_cons_iff]

/-- A text is lowercased with nothing around it. -/
theorem toList_lowercase (s : String) : (lowercase s).toList = lowercaseAmid [] [] s.toList := by
  rw [lowercase, String.toList_ofList, lowercaseAmid_nil]

/-- There is a letter with case whose lower-case form is none but perhaps the
given one. -/
theorem exists_letter (other : Option Char) : ∃ k d, isCased k = true ∧ isCaseIgnorable k = false ∧
    (∀ before after, image before k after = [d]) ∧ other ≠ some d := by
  by_cases hother : other = some 'a'
  · exact ⟨'B', 'b', by decide, by decide, fun _ _ => rfl, by simp [hother]⟩
  · exact ⟨'A', 'a', by decide, by decide, fun _ _ => rfl, hother⟩

/-- A letter with case that is no mark comes next by itself. -/
theorem casedAhead_letter {k : Char} (hk : isCased k = true) (hmark : isCaseIgnorable k = false) :
    casedAhead [k] = true := by
  simp [casedAhead, hk, hmark]

section Edges

variable {word form : List Char} {d : Char} (hlength : word.length = form.length)
  (hne : form ≠ word)

include hlength hne

/-- A word that begins otherwise stands in what is behind the first
character. -/
theorem not_infix_cons (hfirst : word.head? ≠ some d) (hsome : word ≠ []) :
    ¬ word <:+: d :: form := by
  rw [List.infix_cons_iff, List.prefix_cons_iff]
  rintro ((hnil | ⟨rest, rfl, -⟩) | hpart)
  · exact hsome hnil
  · exact hfirst rfl
  · exact hne (hpart.eq_of_length hlength).symm

/-- A word that ends otherwise stands in what is in front of the last
character. -/
theorem not_infix_concat (hlast : word.getLast? ≠ some d) (hsome : word ≠ []) :
    ¬ word <:+: form ++ [d] := by
  rw [List.infix_concat_iff, List.suffix_concat_iff]
  rintro ((hnil | ⟨rest, rfl, -⟩) | hpart)
  · exact hsome hnil
  · exact hlast List.getLast?_concat
  · exact hne (hpart.eq_of_length hlength).symm

end Edges

/-- **A word with an open sigma is missed in some text that it occurs in**: in
one with a letter right before it, or in one with a letter right behind it. -/
theorem exists_text_of_open {word : String} (h : HasOpenSigma word) :
    ∃ text : String, word.toList <:+: text.toList ∧
      ¬ (lowercase word).toList <:+: (lowercase text).toList := by
  obtain ⟨before, after, hword, hopen⟩ := h
  have hsome : lowercaseAmid [] [] word.toList ≠ [] := by
    rw [← List.length_pos_iff, hword, lowercaseAmid_append, lowercaseAmid]
    simp [image]
  rw [toList_lowercase]
  rcases hopen with ⟨hmarks, hnone⟩ | ⟨hcased, hmarks⟩
  · obtain ⟨k, d, hk, hmark, himage, hfirst⟩ :=
      exists_letter (lowercaseAmid [] [] word.toList).head?
    refine ⟨String.ofList (k :: word.toList), ?_, ?_⟩
    · rw [String.toList_ofList]
      exact (List.suffix_cons _ _).isInfix
    · have hinside : casedAhead (before.reverse ++ [k]) = true := by
        rw [casedAhead_append, if_pos hmarks, casedAhead_letter hk hmark]
      have hform : lowercaseAmid [k] [] word.toList ≠ lowercaseAmid [] [] word.toList := by
        rw [hword]
        exact lowercaseAmid_ne (by simp [image, hinside, hnone, casedAhead_of_all hmarks])
      rw [toList_lowercase, String.toList_ofList, lowercaseAmid, himage]
      exact not_infix_cons (length_lowercaseAmid _ _ _ _ _) hform hfirst hsome
  · obtain ⟨k, d, hk, hmark, himage, hlast⟩ :=
      exists_letter (lowercaseAmid [] [] word.toList).getLast?
    refine ⟨String.ofList (word.toList ++ [k]), ?_, ?_⟩
    · rw [String.toList_ofList]
      exact (List.prefix_append _ _).isInfix
    · have hinside : casedAhead (after ++ [k]) = true := by
        rw [casedAhead_append, if_pos hmarks, casedAhead_letter hk hmark]
      have hform : lowercaseAmid [] [k] word.toList ≠ lowercaseAmid [] [] word.toList := by
        rw [hword]
        exact lowercaseAmid_ne (by simp [image, hinside, hcased, casedAhead_of_all hmarks])
      rw [toList_lowercase, String.toList_ofList, lowercaseAmid_append, lowercaseAmid, himage]
      exact not_infix_concat (length_lowercaseAmid _ _ _ _ _) hform hlast hsome

/-- A word without an open sigma is found in every text that it occurs in. -/
theorem infix_lowercase_of_settled {text word : String} (h : ¬ HasOpenSigma word)
    (hpart : word.toList <:+: text.toList) :
    (lowercase word).toList <:+: (lowercase text).toList := by
  obtain ⟨u, v, htext⟩ := hpart
  rw [toList_lowercase, toList_lowercase, ← htext, lowercaseAmid_append, lowercaseAmid_append,
    lowercaseAmid_of_settled h (u.reverse ++ []) (v ++ [])]
  exact ⟨_, _, rfl⟩

end Text

open Text

variable {α : Type}

namespace StringComparison

/-- **Ignoring case, equal texts are equal.** -/
theorem equals_ignoreCase_of_equals {a b : String} (h : ordinal.equals a b = true) :
    ignoreCase.equals a b = true := by
  obtain rfl : a = b := by simpa [equals] using h
  simp [equals]

/-- With case a text contains what stands in it. -/
theorem contains_ordinal_iff {text part : String} :
    ordinal.contains text part = true ↔ part.toList <:+: text.toList := isInfix_iff

/-- Without case a text contains what stands in its lower-case form. -/
theorem contains_ignoreCase_iff {text part : String} :
    ignoreCase.contains text part = true ↔
      (lowercase part).toList <:+: (lowercase text).toList := isInfix_iff

/-- A part without open sigmas is found without case as well. -/
theorem contains_ignoreCase_of_settled {text part : String} (hpart : ¬ HasOpenSigma part)
    (h : ordinal.contains text part = true) : ignoreCase.contains text part = true :=
  contains_ignoreCase_iff.mpr (infix_lowercase_of_settled hpart (contains_ordinal_iff.mp h))

/-- **Ignoring case, a word is contained wherever it is, exactly if it has no
open sigma.** -/
theorem contains_ignoreCase_iff_settled (part : String) :
    (∀ text, ordinal.contains text part = true → ignoreCase.contains text part = true) ↔
      ¬ HasOpenSigma part := by
  refine ⟨fun hall hopen => ?_, fun hsettled _ => contains_ignoreCase_of_settled hsettled⟩
  obtain ⟨text, hoccurs, hmissed⟩ := exists_text_of_open hopen
  exact hmissed (contains_ignoreCase_iff.mp (hall text (contains_ordinal_iff.mpr hoccurs)))

end StringComparison

/-- A text matches a word if some one of its kind does. -/
theorem anyText_value (p : String → Noted (Call α) Bool) (texts : List String) :
    (anyText p texts).value = texts.any fun text => (p text).value := by
  induction texts with
  | nil => rfl
  | cons text texts ih =>
      rw [anyText, List.any_cons, Noted.value_bind]
      cases (p text).value with
      | true => rfl
      | false => simpa using ih

/-- The form that the word is looked for in does not depend on what is around
it: it is exact, or a matcher of its own decides, or it has no open sigma. -/
def SearchExpression.IsSettled (word : SearchExpression)
    (matcher : Option (String → String → Bool)) : Prop :=
  word.exact = true ∨ matcher ≠ none ∨ ¬ HasOpenSigma word.text

/-- A settled word fits without case what it fits with case. -/
theorem SearchExpression.IsSettled.fits {word : SearchExpression}
    {matcher : Option (String → String → Bool)} (h : word.IsSettled matcher) {text : String}
    (hfits : (word.fits matcher .ordinal text : Noted (Call α) Bool).value = true) :
    (word.fits matcher .ignoreCase text : Noted (Call α) Bool).value = true := by
  unfold SearchExpression.fits at hfits ⊢
  by_cases hexact : word.exact = true
  · rw [if_pos hexact] at hfits ⊢
    exact StringComparison.equals_ignoreCase_of_equals hfits
  · rw [if_neg hexact] at hfits ⊢
    cases matcher with
    | some own => exact hfits
    | none =>
        have hword : ¬ HasOpenSigma word.text := by simpa [IsSettled, hexact] using h
        exact StringComparison.contains_ignoreCase_of_settled hword hfits

/-- What relates texts by containment finds a settled word ignoring case too,
and numbers and booleans are related whatever the comparison is. -/
theorem Relation.has_ignoreCase {lhs rhs : ValueType} {handler : Handler} {l r : Value}
    (hhandler : Relation.has.toOperator.resolve? lhs rhs = some handler)
    (hpart : ∀ part, r.string? = some part → ¬ HasOpenSigma part)
    (h : handler.holds l r .ordinal = true) : handler.holds l r .ignoreCase = true := by
  have hknown : ∀ entry ∈ Relation.has.toOperator.handlers, entry.2 = Relation.has.ofNumbers ∨
      entry.2 = Relation.has.ofStrings ∨ entry.2 = Relation.has.ofBooleans := by
    intro entry hentry
    fin_cases hentry <;> simp
  rw [Operator.resolve?, show Relation.has.toOperator.fallback = none from rfl, Option.or_none]
    at hhandler
  obtain ⟨earlier, later, hentries, -⟩ := List.lookup_eq_some_iff.mp hhandler
  have hmem : ((lhs, rhs), handler) ∈ Relation.has.toOperator.handlers := by simp [hentries]
  rcases hknown _ hmem with hnumbers | hstrings | hbooleans
  · rw [show handler = Relation.has.ofNumbers from hnumbers] at h ⊢
    exact h
  · rw [show handler = Relation.has.ofStrings from hstrings] at h ⊢
    unfold Relation.ofStrings at h ⊢
    dsimp only at h ⊢
    cases hl : l.string? with
    | none => simp [hl] at h
    | some text =>
        cases hr : r.string? with
        | none => simp [hl, hr] at h
        | some part =>
            simp only [hl, hr] at h ⊢
            exact StringComparison.contains_ignoreCase_of_settled (hpart part hr) h
  · rw [show handler = Relation.has.ofBooleans from hbooleans] at h ⊢
    exact h

section Conditions

variable [BEq α] {e : α}

/-- A search for a settled word holds without case where it holds with case. -/
theorem Condition.search_ignoreCase {texts : α → List String}
    {matcher : Option (String → String → Bool)} {word : SearchExpression}
    (h : word.IsSettled matcher)
    (hholds : ((Condition.search texts matcher .ordinal word).holds e).value = true) :
    ((Condition.search texts matcher .ignoreCase word).holds e).value = true := by
  rw [holds, Noted.value_bind, anyText_value, List.any_eq_true] at hholds ⊢
  obtain ⟨text, hmem, hfits⟩ := hholds
  exact ⟨text, hmem, h.fits hfits⟩

/-- A containment of a part without open sigmas holds without case where it
holds with case. -/
theorem Condition.has_ignoreCase {reading : Reading α} {lhs rhs : ValueType} {handler : Handler}
    {r : Value} (hhandler : Relation.has.toOperator.resolve? lhs rhs = some handler)
    (hpart : ∀ part, r.string? = some part → ¬ HasOpenSigma part)
    (hholds : ((Condition.compare reading handler .ordinal r).holds e).value = true) :
    ((Condition.compare reading handler .ignoreCase r).holds e).value = true := by
  rw [holds, Noted.value_bind] at hholds ⊢
  cases hl : (reading.value e).value with
  | none => simp [hl] at hholds
  | some l =>
      rw [hl] at hholds
      exact Relation.has_ignoreCase hhandler hpart hholds

/-- **A word without an open sigma that matches as it stands matches ignoring
case.** -/
theorem ignoring_case_keeps_settled_matches :
    (∀ a b, StringComparison.ordinal.equals a b = true →
      StringComparison.ignoreCase.equals a b = true) ∧
    (∀ part, (∀ text, StringComparison.ordinal.contains text part = true →
      StringComparison.ignoreCase.contains text part = true) ↔ ¬ HasOpenSigma part) ∧
    (∀ (texts : α → List String) (matcher : Option (String → String → Bool))
      (word : SearchExpression) (e : α), word.IsSettled matcher →
      ((Condition.search texts matcher .ordinal word).holds e).value = true →
      ((Condition.search texts matcher .ignoreCase word).holds e).value = true) ∧
    (∀ (reading : Reading α) (lhs rhs : ValueType) (handler : Handler) (r : Value) (e : α),
      Relation.has.toOperator.resolve? lhs rhs = some handler →
      (∀ part, r.string? = some part → ¬ HasOpenSigma part) →
      ((Condition.compare reading handler .ordinal r).holds e).value = true →
      ((Condition.compare reading handler .ignoreCase r).holds e).value = true) :=
  ⟨fun _ _ => StringComparison.equals_ignoreCase_of_equals,
    StringComparison.contains_ignoreCase_iff_settled,
    fun _ _ _ _ => Condition.search_ignoreCase,
    fun _ _ _ _ _ _ => Condition.has_ignoreCase⟩

/-- A word that starts with a sigma is found inside a longer one. -/
theorem settled_word_is_found :
    ¬ HasOpenSigma "ΣΟΦΙΑ" ∧
    StringComparison.ignoreCase.equals "ΣΟΦΙΑ" "ΣΟΦΙΑ" = true ∧
    StringComparison.ignoreCase.contains "ΦΙΛΟΣΟΦΙΑ" "ΣΟΦΙΑ" = true ∧
    ((Condition.search (fun e : String => [e]) none .ignoreCase
      { text := "ΣΟΦΙΑ", exact := false }).holds "ΦΙΛΟΣΟΦΙΑ").value = true ∧
    ((Condition.compare { label := "name", read := some fun e : String => some (.string e) }
      Relation.has.ofStrings .ignoreCase (.string "ΣΟΦΙΑ")).holds "ΦΙΛΟΣΟΦΙΑ").value = true := by
  have hsettled : ¬ HasOpenSigma "ΣΟΦΙΑ" := by decide +kernel
  obtain ⟨hequals, hcontains, hsearch, hhas⟩ := ignoring_case_keeps_settled_matches (α := String)
  refine ⟨hsettled, hequals _ _ (by decide +kernel), ?_, ?_, ?_⟩
  · exact (hcontains _).mpr hsettled _ (by decide +kernel)
  · exact hsearch _ _ _ _ (.inr (.inr hsettled)) (by decide +kernel)
  · exact hhas _ .string .string _ _ _ rfl (fun part hpart => Option.some.inj hpart ▸ hsettled)
      (by decide +kernel)

/-- The sigma at the end of a word is another letter than the one inside a
longer word. -/
theorem open_sigma_is_missed :
    StringComparison.ordinal.contains "ΟΔΟΣΑ" "ΟΔΟΣ" = true ∧
      StringComparison.ignoreCase.contains "ΟΔΟΣΑ" "ΟΔΟΣ" = false := by
  decide +kernel

end Conditions

end FilterQuery
