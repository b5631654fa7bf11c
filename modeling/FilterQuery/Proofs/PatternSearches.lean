import Mathlib
import FilterQuery.Proofs.PatternPrograms

/-!
# What the search for a match finds

The search follows the ways through a program and gives up one that comes to a
step at a place where it has been before.  It still finds a match wherever there
is one: when no way is left, the steps taken up at their places lead only to
each other, and none of them is the end.
-/

namespace FilterQuery.Pattern

variable {steps : Steps} {text : List Char}

/-- The cursor stands at its place of the text. -/
structure Cursor.Stands (text : List Char) (s : Cursor) : Prop where
  before : s.before = (text.take s.place).getLast?
  rest : s.rest = text.drop s.place
  place_le : s.place ≤ text.length

/-- The step that is next, and the place. -/
def Way.spot (w : Way) : Nat × Nat := (w.step, w.cursor.place)

/-- A boundary is met by a cursor if it is one at the place where the cursor
stands. -/
theorem Cursor.Stands.meets {s : Cursor} (h : s.Stands text) (b : Boundary) :
    s.meets b = (Cursor.at text s.place).meets b := by
  have hs : s = { Cursor.at text s.place with openings := s.openings, captures := s.captures } :=
    Cursor.mk.injEq .. ▸ ⟨h.before, h.rest, rfl, rfl, rfl⟩
  rw [hs]
  cases b <;> rfl

/-- A cursor takes the character at its place, if that is in the class, and then
stands behind it. -/
theorem Cursor.Stands.take? {s : Cursor} (h : s.Stands text) (c : CharClass) :
    (∃ d, text[s.place]? = some d ∧ c.holds d = true ∧
      ∃ t, s.take? c = some t ∧ t.place = s.place + 1 ∧ t.Stands text) ∨
    text[s.place]?.any c.holds = false ∧ s.take? c = none := by
  rcases Nat.lt_or_ge s.place text.length with hlt | hge
  · have hrest : s.rest = text[s.place] :: text.drop (s.place + 1) :=
      h.rest.trans (List.drop_eq_getElem_cons hlt)
    rw [List.getElem?_eq_getElem hlt, Cursor.take?, hrest]
    cases hc : c.holds text[s.place] with
    | false => simp [hc]
    | true =>
        refine .inl ⟨_, rfl, hc, _, if_pos hc, rfl, ?_, rfl, hlt⟩
        exact (List.take_succ_eq_append_getElem hlt ▸ List.getLast?_concat).symm
  · rw [List.getElem?_eq_none hge, Cursor.take?, h.rest, List.drop_eq_nil_of_le hge]
    exact .inr ⟨rfl, rfl⟩

/-- The ways on behind a step are its moves. -/
theorem Way.next_spots {s : Cursor} (h : s.Stands text) (step : Step) :
    (Way.next s step).map Way.spot = step.moves text s.place ∧
      ∀ w ∈ Way.next s step, w.cursor.Stands text := by
  cases step with
  | take c next =>
      obtain ⟨d, hd, hc, t, ht, hplace, hstands⟩ | ⟨hnone, htake⟩ := h.take? c
      · simp [Way.next, Step.moves, Way.spot, hd, hc, ht, hplace, hstands]
      · simp [Way.next, Step.moves, hnone, htake]
  | check b next =>
      rw [Way.next, Step.moves, h.meets]
      split <;> simp [Way.spot, h]
  | choose preferred other => simp [Way.next, Step.moves, Way.spot, h]
  | openGroup index next => exact ⟨rfl, by simpa [Way.next] using ⟨h.before, h.rest, h.place_le⟩⟩
  | closeGroup index next => exact ⟨rfl, by simpa [Way.next] using ⟨h.before, h.rest, h.place_le⟩⟩
  | stop => simp [Way.next, Step.moves]

/-- The step has been taken up at the place. -/
def IsSeen (seen : Array Nat) (v : Nat × Nat) : Prop := (seen.getD v.2 0).testBit v.1 = true

instance (seen : Array Nat) (v : Nat × Nat) : Decidable (IsSeen seen v) :=
  inferInstanceAs (Decidable (_ = true))

/-- Notes that a step is taken up at a place. -/
def mark (seen : Array Nat) (v : Nat × Nat) : Array Nat := seen.modify v.2 (· ||| 1 <<< v.1)

/-- To mark a step at a place is to see it there and nothing else. -/
theorem isSeen_mark {seen : Array Nat} {u v : Nat × Nat} (h : v.2 < seen.size) :
    IsSeen (mark seen v) u ↔ IsSeen seen u ∨ u = v := by
  rw [IsSeen, IsSeen, mark, Array.getD_eq_getD_getElem?, Array.getElem?_modify,
    Array.getD_eq_getD_getElem?]
  by_cases hplace : v.2 = u.2
  · rw [if_pos hplace, ← hplace, Array.getElem?_eq_getElem h]
    rw [Option.map_some, Option.getD_some, Option.getD_some, Nat.testBit_or, Bool.or_eq_true,
      Nat.one_shiftLeft, Nat.testBit_two_pow, decide_eq_true_iff]
    exact or_congr_right ⟨fun hstep => Prod.ext hstep.symm hplace.symm, fun huv => huv ▸ rfl⟩
  · have hne : u ≠ v := fun huv => hplace (huv ▸ rfl)
    simp [hplace, hne]

@[simp] theorem not_isSeen_replicate {n : Nat} {v : Nat × Nat} :
    ¬IsSeen (Array.replicate n 0) v := by
  rw [IsSeen, Array.getD_eq_getD_getElem?, Array.getElem?_replicate]
  split <;> simp

/-- What the search finds, with all the fuel it needs. -/
inductive Follows (steps : Steps) : (seen : Array Nat) → List Way → Option Cursor → Prop where
  | done {seen : Array Nat} : Follows steps seen [] none
  | again {seen : Array Nat} {w : Way} {ways : List Way} {found : Option Cursor}
      (hseen : IsSeen seen w.spot) (h : Follows steps seen ways found) :
      Follows steps seen (w :: ways) found
  | stop {seen : Array Nat} {w : Way} {ways : List Way} (hseen : ¬IsSeen seen w.spot)
      (hstep : steps.getD w.step .stop = .stop) : Follows steps seen (w :: ways) (some w.cursor)
  | next {seen : Array Nat} {w : Way} {ways : List Way} {found : Option Cursor}
      (hseen : ¬IsSeen seen w.spot) (hstep : steps.getD w.step .stop ≠ .stop)
      (h : Follows steps (mark seen w.spot)
        (Way.next w.cursor (steps.getD w.step .stop) ++ ways) found) :
      Follows steps seen (w :: ways) found

/-- The number of steps and places that have not been taken up. -/
def unseen (steps : Steps) (text : List Char) (seen : Array Nat) : Nat :=
  ((Finset.range steps.size ×ˢ Finset.range (text.length + 1)).filter (¬IsSeen seen ·)).card

/-- To mark what has not been seen leaves less to be seen, by which the search
comes to its end. -/
theorem unseen_mark {seen : Array Nat} {v : Nat × Nat} (hsize : seen.size = text.length + 1)
    (hstep : v.1 < steps.size) (hplace : v.2 < text.length + 1) (hseen : ¬IsSeen seen v) :
    unseen steps text (mark seen v) < unseen steps text seen := by
  have hmark (u : Nat × Nat) := isSeen_mark (u := u) (hsize ▸ hplace)
  refine Finset.card_lt_card (Finset.ssubset_iff_of_subset ?_ |>.mpr ⟨v, ?_, ?_⟩)
  · intro u hu
    simp only [Finset.mem_filter, hmark, not_or] at hu ⊢
    exact ⟨hu.1, hu.2.1⟩
  · simp [hstep, hplace, hseen]
  · simp [hmark]

/-- A step leads on in two ways at most. -/
theorem Way.next_length (s : Cursor) (step : Step) : (Way.next s step).length ≤ 2 := by
  cases step with
  | take c next => cases h : s.take? c <;> simp [Way.next, h]
  | check b next => rw [Way.next]; split <;> simp
  | _ => simp [Way.next]

/-- The search follows the ways in order: its fuel covers what is still to be
seen, twice over for the ways that each step adds. -/
theorem follows_follow {fuel : Nat} {seen : Array Nat} {ways : List Way}
    (hsize : seen.size = text.length + 1) (hways : ∀ w ∈ ways, w.cursor.Stands text)
    (hfuel : 2 * unseen steps text seen + ways.length < fuel) :
    Follows steps seen ways (follow steps fuel seen ways) := by
  induction fuel generalizing seen ways with
  | zero => cases hfuel
  | succ fuel ih =>
      cases ways with
      | nil => exact .done
      | cons w ways =>
          obtain ⟨hw, hways⟩ := List.forall_mem_cons.mp hways
          rw [List.length_cons] at hfuel
          rw [follow]
          split
          · next hseen => exact .again hseen (ih hsize hways (by omega))
          · next hseen =>
            split
            · next hstep => exact .stop hseen hstep
            · next step hstep hstop =>
              -- two ways at most come in place of one, and one spot less is unseen
              have hlt := lt_size_of_getD_ne_stop hstop
              have hplace := Nat.lt_succ_of_le hw.place_le
              have hless := unseen_mark (v := w.spot) hsize hlt hplace hseen
              have hlength := Way.next_length w.cursor (steps.getD w.step .stop)
              refine .next hseen hstop (ih ?_ ?_ ?_)
              · simpa [mark] using hsize
              · exact List.forall_mem_append.mpr ⟨(Way.next_spots hw _).2, hways⟩
              · rw [List.length_append]
                omega

variable {seen : Array Nat} {ways : List Way}

/-- A match that is found comes from one of the ways. -/
theorem Follows.sound {found : Option Cursor} {s : Cursor} (h : Follows steps seen ways found)
    (hways : ∀ w ∈ ways, w.cursor.Stands text) (hs : found = some s) :
    ∃ w ∈ ways, s.Stands text ∧ Reaches steps text w.spot s.place := by
  induction h with
  | done => cases hs
  | again _ _ ih =>
      obtain ⟨w, hw, hfound⟩ := ih (List.forall_mem_cons.mp hways).2 hs
      exact ⟨w, List.mem_cons_of_mem _ hw, hfound⟩
  | @stop _ w _ _ hstep =>
      cases hs
      exact ⟨w, List.mem_cons_self, hways w List.mem_cons_self, 0, .stop hstep⟩
  | @next _ w ways _ _ _ _ ih =>
      obtain ⟨hw, hways⟩ := List.forall_mem_cons.mp hways
      obtain ⟨hspots, hnext⟩ := Way.next_spots hw (steps.getD w.step .stop)
      obtain ⟨u, hu, hstands, n, hn⟩ := ih (List.forall_mem_append.mpr ⟨hnext, hways⟩) hs
      rcases List.mem_append.mp hu with hu | hu
      · have hmove := hspots ▸ List.mem_map_of_mem (f := Way.spot) hu
        exact ⟨w, List.mem_cons_self, hstands, n + 1, .move hmove hn⟩
      · exact ⟨u, List.mem_cons_of_mem _ hu, hstands, n, hn⟩

/-- A step at a place that has been taken up or is waiting. -/
def IsMet (seen : Array Nat) (ways : List Way) (v : Nat × Nat) : Prop :=
  IsSeen seen v ∨ v ∈ ways.map Way.spot

/-- No step taken up is the end, and all moves from there are met. -/
def Explored (steps : Steps) (text : List Char) (seen : Array Nat) (ways : List Way) : Prop :=
  ∀ v, IsSeen seen v → steps.getD v.1 .stop ≠ .stop ∧
    ∀ u ∈ (steps.getD v.1 .stop).moves text v.2, IsMet seen ways u

/-- When no match is found, none can be reached from anything that has been
met. -/
theorem Follows.complete {found : Option Cursor} (h : Follows steps seen ways found)
    (hsize : seen.size = text.length + 1) (hways : ∀ w ∈ ways, w.cursor.Stands text)
    (hexplored : Explored steps text seen ways) (hfound : found = none) {v : Nat × Nat} {e : Nat}
    (hv : IsMet seen ways v) : ¬Reaches steps text v e := by
  induction h with
  | done =>
      -- nothing is waiting: what has been taken up leads only to what has been taken up
      rintro ⟨n, hn⟩
      induction hn with
      | stop hstop => exact (hexplored _ (by simpa [IsMet] using hv)).1 hstop
      | move hmove _ ih => exact ih ((hexplored _ (by simpa [IsMet] using hv)).2 _ hmove)
  | @again seen w ways _ hseen _ ih =>
      have hmet {u : Nat × Nat} (hu : IsMet seen (w :: ways) u) : IsMet seen ways u := by
        rcases hu with hu | hu
        · exact .inl hu
        · rcases List.mem_cons.mp hu with rfl | hu
          exacts [.inl hseen, .inr hu]
      exact ih hsize (List.forall_mem_cons.mp hways).2
        (fun v hv => (hexplored v hv).imp_right fun hmoves u hu => hmet (hmoves u hu)) hfound
        (hmet hv)
  | stop => cases hfound
  | @next seen w ways _ _ hstep _ ih =>
      obtain ⟨hw, hways⟩ := List.forall_mem_cons.mp hways
      obtain ⟨hspots, hnext⟩ := Way.next_spots hw (steps.getD w.step .stop)
      have hmark {u : Nat × Nat} : IsSeen (mark seen w.spot) u ↔ IsSeen seen u ∨ u = w.spot :=
        isSeen_mark (hsize ▸ Nat.lt_succ_of_le hw.place_le)
      have hmet {u : Nat × Nat} (hu : IsMet seen (w :: ways) u) : IsMet (mark seen w.spot)
          (Way.next w.cursor (steps.getD w.step .stop) ++ ways) u := by
        rcases hu with hu | hu
        · exact .inl (hmark.mpr (.inl hu))
        · rw [List.map_cons, List.mem_cons] at hu
          rw [IsMet, hmark, List.map_append, List.mem_append]
          tauto
      refine ih (by simpa [mark] using hsize) (List.forall_mem_append.mpr ⟨hnext, hways⟩)
        (fun v hv => ?_) hfound (hmet hv)
      rcases hmark.mp hv with hv | rfl
      · exact (hexplored v hv).imp_right fun hmoves u hu => hmet (hmoves u hu)
      · refine ⟨hstep, fun u hu => .inr ?_⟩
        rw [List.map_append, hspots]
        exact List.mem_append_left _ hu

theorem stands_start (text : List Char) : Cursor.Stands text { rest := text } :=
  ⟨rfl, rfl, Nat.zero_le _⟩

/-- The search of a text follows the way from the first step on. -/
theorem follows_preferred (p : Pattern) (text : List Char) :
    Follows p.program.steps (Array.replicate (text.length + 1) 0)
      [⟨p.program.start, { rest := text }⟩] (p.preferred? text) := by
  refine follows_follow Array.size_replicate (List.forall_mem_singleton.mpr (stands_start text)) ?_
  have hunseen : unseen p.program.steps text (Array.replicate (text.length + 1) 0) ≤
      p.program.steps.size * (text.length + 1) :=
    (Finset.card_filter_le _ _).trans (by simp)
  rw [List.length_singleton, Nat.mul_assoc]
  omega

/-- The preferred match is a match. -/
theorem spans_of_preferred {p : Pattern} {s : Cursor} (h : p.preferred? text = some s) :
    s.Stands text ∧ p.Spans text 0 s.place := by
  obtain ⟨w, hw, hstands, hreaches⟩ :=
    (follows_preferred p text).sound (List.forall_mem_singleton.mpr (stands_start text)) h
  obtain rfl := List.mem_singleton.mp hw
  exact ⟨hstands, program_reaches.mp hreaches⟩

/-- There is a preferred match where there is a match at all. -/
theorem exists_preferred {p : Pattern} {j : Nat} (h : p.Spans text 0 j) :
    ∃ s, p.preferred? text = some s := by
  by_contra hnone
  refine (follows_preferred p text).complete Array.size_replicate
    (List.forall_mem_singleton.mpr (stands_start text))
    (fun v hv => absurd hv not_isSeen_replicate) (Option.eq_none_iff_forall_ne_some.mpr ?_)
    (.inr (List.mem_singleton.mpr rfl)) (program_reaches.mpr h)
  exact fun s hs => hnone ⟨s, hs⟩

end FilterQuery.Pattern
