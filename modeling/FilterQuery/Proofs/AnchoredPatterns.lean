import Mathlib
import FilterQuery.Filter
import FilterQuery.Proofs.PatternPreferences

/-!
# Names that fit a pattern

A filter for all names that fit a pattern takes a name if the preferred match
from its start on is the whole name.  The whole name is then a match.  A name
that is one as a whole is missed where the pattern prefers a match that ends
before it does; conditions on the text's start and stop around the pattern leave
no such match, and every name that is a match is found.
-/

namespace FilterQuery

namespace Pattern

/-- The whole name is a match. -/
def Covers (p : Pattern) (name : String) : Prop := p.Spans name.toList 0 name.length

/-- The pattern between the start and the stop of the text. -/
def anchored (p : Pattern) : Pattern :=
  sequence (boundary .textStart) (sequence p (boundary .textStop))

/-- An anchored pattern spans what the pattern itself spans up to the end of the
text. -/
theorem spans_anchored {p : Pattern} {text : List Char} {j : Nat} :
    p.anchored.Spans text 0 j ↔ p.Spans text 0 j ∧ j = text.length := by
  have hstart : (Cursor.at text 0).meets .textStart = true := rfl
  have hstop (j : Nat) : (Cursor.at text j).meets .textStop = true ↔ text.length ≤ j := by
    rw [Cursor.meets, Cursor.at, List.isEmpty_iff, List.drop_eq_nil_iff]
  constructor
  · rintro ⟨_, ⟨-, rfl⟩, j, hspans, hmeets, rfl⟩
    have hle := hspans.le_length
    have hge := (hstop j).mp hmeets
    exact ⟨hspans, by omega⟩
  · rintro ⟨hspans, rfl⟩
    exact ⟨0, ⟨hstart, rfl⟩, _, hspans, (hstop _).mpr le_rfl, rfl⟩

example : Pattern.read? "^(?:a|ab)$" = (Pattern.read? "a|ab").map anchored := by decide +kernel

/-- A name is taken if the preferred match ends where it ends. -/
theorem captures_isSome {p : Pattern} {name : String} :
    (p.captures? name).isSome ↔
      (p.preferred? name.toList).map Cursor.place = some name.length := by
  rw [captures?]
  cases hs : p.preferred? name.toList with
  | none => simp
  | some s =>
      obtain ⟨hstands, -⟩ := spans_of_preferred hs
      have hplace := hstands.place_le
      rw [String.length_toList] at hplace
      have hrest : s.rest.isEmpty = true ↔ s.place = name.length := by
        rw [hstands.rest, List.isEmpty_iff, List.drop_eq_nil_iff, String.length_toList]
        omega
      by_cases hwhole : s.place = name.length <;> simp [hrest, hwhole]

/-- The whole of a name that is taken is a match. -/
theorem covers_of_captures {p : Pattern} {name : String} (h : (p.captures? name).isSome) :
    p.Covers name := by
  obtain ⟨s, hs, hplace⟩ := Option.map_eq_some_iff.mp (captures_isSome.mp h)
  rw [Covers, ← hplace]
  exact (spans_of_preferred hs).2

end Pattern

namespace FilterToken

open Pattern

/-- A pattern's filter takes a name only if the whole of it is a match, and of
these names it misses just those of which the pattern prefers a shorter part.
Which match is preferred follows from the order of the matches, if whatever is
repeated without an end takes characters.  Anchors on both sides leave the whole
name as the only match. -/
theorem family_takes_preferred_names (text : String) (p : Pattern) (name : String) :
    (((family text p).captures? name).isSome → p.Covers name) ∧
    (p.Covers name → ((family text p).captures? name = none ↔
      ∃ j < name.length, p.Spans name.toList 0 j ∧
        (p.preferred? name.toList).map Cursor.place = some j)) ∧
    (p.Advances →
      (p.Covers name ↔ name.length ∈ p.ends name.toList 0) ∧
      (((family text p).captures? name).isSome ↔
        (p.ends name.toList 0).head? = some name.length)) ∧
    (((family text p.anchored).captures? name).isSome ↔ p.Covers name) := by
  have hlength : name.toList.length = name.length := String.length_toList
  refine ⟨covers_of_captures, fun hcovers => ⟨fun hnone => ?_, ?_⟩, fun hp => ⟨?_, ?_⟩,
    fun hsome => ?_, fun hcovers => ?_⟩
  · obtain ⟨s, hs⟩ := exists_preferred hcovers
    obtain ⟨hstands, hspans⟩ := spans_of_preferred hs
    have hplace : (p.preferred? name.toList).map Cursor.place = some s.place := by
      rw [hs, Option.map_some]
    refine ⟨s.place, (hlength ▸ hstands.place_le).lt_of_ne fun hwhole => ?_, hspans, hplace⟩
    have hsome : (p.captures? name).isSome := captures_isSome.mpr (hwhole ▸ hplace)
    rw [show p.captures? name = none from hnone] at hsome
    cases hsome
  · rintro ⟨j, hlt, -, hj⟩
    refine Option.not_isSome_iff_eq_none.mp fun hsome => hlt.ne ?_
    exact Option.some.inj (hj.symm.trans (captures_isSome.mp hsome))
  · have o : Orders name.toList p.compile (p.ends name.toList) := .compile hp
    exact o.mem_ends.symm
  · rw [← preferred_head hp]
    exact captures_isSome
  · exact (spans_anchored.mp (covers_of_captures hsome)).1
  · obtain ⟨s, hs⟩ := exists_preferred (spans_anchored.mpr ⟨hcovers, hlength.symm⟩)
    obtain ⟨-, hplace⟩ := spans_anchored.mp (spans_of_preferred hs).2
    exact captures_isSome.mpr (by rw [hs, Option.map_some, hplace, hlength])

/-- With the longer alternative in front, a repetition takes the whole name. -/
theorem longer_alternative_is_preferred :
    ∃ p, Pattern.read? "(?:ab|a)+" = some p ∧ p.Advances ∧ p.Covers "aab" ∧
      ((family "(?:ab|a)+" p).captures? "aab").isSome := by
  refine ⟨repetition (alternative (literal ['a', 'b']) (literal ['a'])) 1 none true,
    by decide +kernel, ⟨⟨trivial, trivial⟩, fun _ => rfl⟩, ?_⟩
  obtain ⟨-, -, horder, -⟩ := family_takes_preferred_names "(?:ab|a)+"
    (repetition (alternative (literal ['a', 'b']) (literal ['a'])) 1 none true) "aab"
  obtain ⟨hcovers, htaken⟩ := horder ⟨⟨trivial, trivial⟩, fun _ => rfl⟩
  exact ⟨hcovers.mpr (by decide), htaken.mpr (by decide)⟩

/-- With the shorter alternative in front, the name is covered but not taken. -/
theorem shorter_alternative_is_preferred :
    ∃ p, Pattern.read? "a|ab" = some p ∧ p.Covers "ab" ∧
      (family "a|ab" p).captures? "ab" = none := by
  refine ⟨alternative (literal ['a']) (literal ['a', 'b']), by decide +kernel, .inr ⟨?_, rfl⟩,
    by decide +kernel⟩
  decide

end FilterToken

end FilterQuery
