import Mathlib
import FilterQuery.Pattern.Match

/-!
# What the programs of patterns do

A pattern matches a text from one place to another, by the meaning of its parts.
Its program leads from its first step at the one place to the step behind it at
the other, whatever other steps there are: `Compiles` says this of the steps
that are added for a part, and each way of putting parts together keeps it.  A
loop is gone round by the number of moves that are left.
-/

namespace FilterQuery.Pattern

/-- So many rounds, one behind the other. -/
def Rounds (R : Nat → Nat → Prop) : (rounds : Nat) → Nat → Nat → Prop
  | 0, i, j => i = j
  | rounds + 1, i, k => ∃ j, Rounds R rounds i j ∧ R j k

/-- The cursor at a place of a text, with nothing captured. -/
def Cursor.at (text : List Char) (i : Nat) : Cursor :=
  { before := (text.take i).getLast?, rest := text.drop i, place := i }

/-- The pattern matches the text from one place to another.  A repetition has no
fewer rounds than its minimum, whatever its maximum is. -/
def Spans (text : List Char) : Pattern → Nat → Nat → Prop
  | empty, i, j => i = j
  | literal cs, i, j => cs <+: text.drop i ∧ j = i + cs.length
  | one c, i, j => (∃ d, text[i]? = some d ∧ c.holds d = true) ∧ j = i + 1
  | boundary b, i, j => (Cursor.at text i).meets b = true ∧ i = j
  | sequence a b, i, k => ∃ j, a.Spans text i j ∧ b.Spans text j k
  | alternative a b, i, j => a.Spans text i j ∨ b.Spans text i j
  | repetition p min max _, i, j =>
    ∃ rounds, min ≤ rounds ∧ (∀ most, max = some most → rounds ≤ min ∨ rounds ≤ most) ∧
      Rounds (p.Spans text) rounds i j
  | capture _ p, i, j => p.Spans text i j

/-- A number of rounds is made of rounds up to a place and rounds from there. -/
theorem rounds_add {R : Nat → Nat → Prop} {first more i k : Nat} :
    Rounds R (first + more) i k ↔ ∃ j, Rounds R first i j ∧ Rounds R more j k := by
  induction more generalizing k with
  | zero => simp [Rounds]
  | succ more ih =>
      constructor
      · rintro ⟨l, hrounds, hR⟩
        obtain ⟨j, hfirst, hmore⟩ := ih.mp hrounds
        exact ⟨j, hfirst, l, hmore, hR⟩
      · rintro ⟨j, hfirst, l, hmore, hR⟩
        exact ⟨l, ih.mpr ⟨j, hfirst, hmore⟩, hR⟩

/-- One round more is a round and then the others. -/
theorem rounds_succ {R : Nat → Nat → Prop} {rounds i k : Nat} :
    Rounds R (rounds + 1) i k ↔ ∃ j, R i j ∧ Rounds R rounds j k := by
  rw [Nat.add_comm, rounds_add]
  simp [Rounds]

@[simp] theorem single_holds {c d : Char} : (CharClass.single c).holds d = true ↔ d = c := by
  rw [← Char.toNat_inj]
  simp [CharClass.holds, CharClass.has, CharClass.single, CharClass.range, Text.inRanges]
  omega

/-- Where a step goes on from a place, the preferred way first. -/
def Step.moves (text : List Char) (i : Nat) : Step → List (Nat × Nat)
  | .take c next => if (text[i]?.any c.holds) then [(next, i + 1)] else []
  | .check b next => if (Cursor.at text i).meets b then [(next, i)] else []
  | .choose preferred other => [(preferred, i), (other, i)]
  | .openGroup _ next => [(next, i)]
  | .closeGroup _ next => [(next, i)]
  | .stop => []

/-- So many moves lead from a step at a place to the end of the program, at
another place. -/
inductive Leads (steps : Steps) (text : List Char) : (moves : Nat) → Nat × Nat → Nat → Prop where
  | stop {k i : Nat} (h : steps.getD k .stop = .stop) : Leads steps text 0 (k, i) i
  | move {n k i j : Nat} {v : Nat × Nat} (hv : v ∈ (steps.getD k .stop).moves text i)
      (h : Leads steps text n v j) : Leads steps text (n + 1) (k, i) j

/-- Where the program stops, nothing more is taken. -/
theorem Leads.eq_of_stop {steps : Steps} {text : List Char} {n k i j : Nat}
    (h : Leads steps text n (k, i) j) (hstop : steps.getD k .stop = .stop) : i = j := by
  cases h with
  | stop => rfl
  | move hv =>
      rw [hstop] at hv
      cases hv

/-- Some moves lead to the end. -/
def Reaches (steps : Steps) (text : List Char) (v : Nat × Nat) (j : Nat) : Prop :=
  ∃ n, Leads steps text n v j

/-- The steps from a number on are there in the final program as well. -/
def Kept (base : Nat) (steps final : Steps) : Prop :=
  ∀ k, base ≤ k → k < steps.size → final.getD k .stop = steps.getD k .stop

/-- The steps that are added for a part lead through it: from the first of them
at one place to the next step at another one, if the part matches in between. -/
structure Compiles (text : List Char) (part : Nat → Steps → Nat × Steps)
    (R : Nat → Nat → Prop) : Prop where
  size_le : ∀ next steps, steps.size ≤ (part next steps).2.size
  keeps : ∀ next steps, Kept 0 steps (part next steps).2
  complete : ∀ {next steps final i j e}, Kept steps.size (part next steps).2 final → R i j →
    Reaches final text (next, j) e → Reaches final text ((part next steps).1, i) e
  sound : ∀ {next steps final n i e}, Kept steps.size (part next steps).2 final →
    Leads final text n ((part next steps).1, i) e →
    ∃ j m, m ≤ n ∧ R i j ∧ Leads final text m (next, j) e

section Arrays

variable {steps final : Steps} {k : Nat}

/-- A new step leaves the steps before it. -/
theorem getD_push_of_lt (h : k < steps.size) (step : Step) :
    (steps.push step).getD k .stop = steps.getD k .stop := by
  rw [Array.getD_eq_getD_getElem?, Array.getD_eq_getD_getElem?, Array.getElem?_push,
    if_neg (by omega)]

theorem getD_push_size (step : Step) : (steps.push step).getD steps.size .stop = step := by
  rw [Array.getD_eq_getD_getElem?, Array.getElem?_push, if_pos rfl, Option.getD_some]

/-- A step put in place of another one stands there. -/
theorem getD_set (h : k < steps.size) (step : Step) : (steps.set! k step).getD k .stop = step := by
  rw [Array.getD_eq_getD_getElem?, Array.set!_eq_setIfInBounds, Array.getElem?_setIfInBounds,
    if_pos rfl, if_pos h, Option.getD_some]

/-- A step put in place of another one leaves all others. -/
theorem getD_set_of_ne {l : Nat} (h : k ≠ l) (step : Step) :
    (steps.set! k step).getD l .stop = steps.getD l .stop := by
  rw [Array.getD_eq_getD_getElem?, Array.getD_eq_getD_getElem?, Array.set!_eq_setIfInBounds,
    Array.getElem?_setIfInBounds, if_neg h]

/-- A step that is no stop is in the program. -/
theorem lt_size_of_getD_ne_stop (h : steps.getD k .stop ≠ .stop) : k < steps.size := by
  by_contra hge
  rw [Array.getD_eq_getD_getElem?, Array.getElem?_eq_none (Nat.le_of_not_lt hge)] at h
  exact h rfl

end Arrays

namespace Kept

variable {base base' : Nat} {steps steps' final : Steps}

theorem refl (base : Nat) (steps : Steps) : Kept base steps steps := fun _ _ _ => rfl

/-- What keeps the steps from a number on keeps those from a later one on. -/
theorem mono (h : Kept base steps final) (hbase : base ≤ base') : Kept base' steps final :=
  fun k hk => h k (hbase.trans hk)

/-- What keeps the steps of one program, which keeps those of another, keeps
these as well. -/
theorem trans (h : Kept base steps steps') (h' : Kept base steps' final)
    (hsize : steps.size ≤ steps'.size) : Kept base steps final :=
  fun k hk hlt => (h' k hk (hlt.trans_le hsize)).trans (h k hk hlt)

/-- A new step keeps all others. -/
theorem push (steps : Steps) (step : Step) : Kept 0 steps (steps.push step) :=
  fun _ _ hlt => getD_push_of_lt hlt step

theorem of_push {step : Step} (h : Kept base (steps.push step) final) : Kept base steps final :=
  ((push steps step).mono (Nat.zero_le base)).trans h (by simp)

/-- The new step stands in every program that keeps it. -/
theorem last {step : Step} (h : Kept base (steps.push step) final) (hbase : base ≤ steps.size) :
    final.getD steps.size .stop = step :=
  (h _ hbase (by simp)).trans (getD_push_size step)

end Kept

namespace Compiles

variable {text : List Char} {part a b : Nat → Steps → Nat × Steps} {R A B : Nat → Nat → Prop}

/-- No steps match nothing. -/
theorem nothing : Compiles text (fun next steps => (next, steps)) (fun i j => i = j) where
  size_le _ _ := le_rfl
  keeps _ steps := .refl 0 steps
  complete := by
    rintro next steps final i j e - rfl h
    exact h
  sound := by
    intro next steps final n i e _ h
    exact ⟨i, n, le_rfl, rfl, h⟩

/-- A part keeps all steps made before it. -/
theorem kept (h : Compiles text part R) {base next : Nat} {steps final : Steps}
    (hkept : Kept base (part next steps).2 final) : Kept base steps final :=
  ((h.keeps next steps).mono (Nat.zero_le base)).trans hkept (h.size_le next steps)

/-- One step, that goes on to the next one at some places. -/
theorem add {step : Nat → Step} (hstep : ∀ next, step next ≠ .stop)
    (hmoves : ∀ next i v, v ∈ (step next).moves text i ↔ v.1 = next ∧ R i v.2) :
    Compiles text (fun next steps => Steps.add (step next) steps) R where
  size_le _ steps := by simp [Steps.add]
  keeps _ steps := .push steps _
  complete := by
    rintro next steps final i j e hkept hR ⟨n, hn⟩
    refine ⟨n + 1, .move (v := (next, j)) ?_ hn⟩
    rw [Steps.add, hkept.last le_rfl]
    exact (hmoves ..).mpr ⟨rfl, hR⟩
  sound := by
    intro next steps final n i e hkept hn
    have hadded : final.getD (Steps.add (step next) steps).1 .stop = step next := hkept.last le_rfl
    cases hn with
    | stop h => exact absurd (hadded.symm.trans h) (hstep next)
    | @move n _ _ _ v hv h =>
        rw [hadded] at hv
        obtain ⟨rfl, hR⟩ := (hmoves ..).mp hv
        exact ⟨v.2, n, Nat.le_succ n, hR, h⟩

/-- One step, that goes on to the next one at every place. -/
theorem pass (step : Nat → Step) (hstep : ∀ next, step next ≠ .stop)
    (hmoves : ∀ next i, (step next).moves text i = [(next, i)]) :
    Compiles text (fun next steps => Steps.add (step next) steps) (fun i j => i = j) :=
  add hstep fun next i v => by simp [hmoves, Prod.ext_iff, eq_comm]

/-- One part before another one, which is added first. -/
theorem seq (ha : Compiles text a A) (hb : Compiles text b B) :
    Compiles text (fun next steps => a (b next steps).1 (b next steps).2)
      (fun i k => ∃ j, A i j ∧ B j k) where
  size_le _ _ := (hb.size_le _ _).trans (ha.size_le _ _)
  keeps _ _ := (hb.keeps _ _).trans (ha.keeps _ _) (hb.size_le _ _)
  complete := by
    rintro next steps final i k e hkept ⟨j, hA, hB⟩ hreaches
    exact ha.complete (hkept.mono (hb.size_le ..)) hA (hb.complete (ha.kept hkept) hB hreaches)
  sound := by
    intro next steps final n i e hkept hn
    obtain ⟨j, m, hm, hA, hj⟩ := ha.sound (hkept.mono (hb.size_le ..)) hn
    obtain ⟨k, l, hl, hB, hk⟩ := hb.sound (ha.kept hkept) hj
    exact ⟨k, l, hl.trans hm, ⟨j, hA, hB⟩, hk⟩

/-- What a part matches may be said in other words. -/
theorem congr (h : Compiles text a A) (hR : ∀ i j, A i j ↔ R i j) : Compiles text a R := by
  have hAR : A = R := funext fun i => funext fun j => propext (hR i j)
  exact hAR ▸ h

/-- A part so many times. -/
theorem times (h : Compiles text part R) (count : Nat) :
    Compiles text (Steps.addTimes part count) (Rounds R count) := by
  induction count with
  | zero => exact nothing
  | succ count ih => exact ih.seq h

/-- A step that goes on to one of two steps at the same place. -/
structure IsChoice (step : Step) (first second : Nat) : Prop where
  ne_stop : step ≠ .stop
  mem_moves : ∀ (text : List Char) (i : Nat) (v : Nat × Nat),
    v ∈ step.moves text i ↔ v = (first, i) ∨ v = (second, i)

theorem isChoice_choose (first second : Nat) : IsChoice (.choose first second) first second :=
  ⟨Step.noConfusion, fun _ _ _ => by simp [Step.moves]⟩

/-- A choice goes on with a round or behind, whichever comes first. -/
theorem isChoice_orNot (greedy : Bool) (round next : Nat) :
    IsChoice (Steps.orNot greedy round next) round next := by
  cases greedy with
  | true => exact isChoice_choose round next
  | false => exact ⟨Step.noConfusion, fun _ _ _ => by simp [Steps.orNot, Step.moves, or_comm]⟩

section IsChoice

variable {step : Step} {first second k i e : Nat} {final : Steps}

/-- From a choice the program reaches what it reaches from one of its steps. -/
theorem IsChoice.reaches (h : IsChoice step first second) (hk : final.getD k .stop = step)
    (hreaches : Reaches final text (first, i) e ∨ Reaches final text (second, i) e) :
    Reaches final text (k, i) e := by
  subst hk
  rcases hreaches with ⟨n, hn⟩ | ⟨n, hn⟩
  · exact ⟨n + 1, .move ((h.mem_moves ..).mpr (.inl rfl)) hn⟩
  · exact ⟨n + 1, .move ((h.mem_moves ..).mpr (.inr rfl)) hn⟩

/-- From a choice the program goes on with one of its steps, and there is less
to go. -/
theorem IsChoice.leads {n : Nat} (h : IsChoice step first second) (hk : final.getD k .stop = step)
    (hleads : Leads final text n (k, i) e) :
    ∃ m, m < n ∧ (Leads final text m (first, i) e ∨ Leads final text m (second, i) e) := by
  subst hk
  cases hleads with
  | stop hstop => exact absurd hstop h.ne_stop
  | @move n _ _ _ v hv hrest =>
      rcases (h.mem_moves _ _ v).mp hv with rfl | rfl
      · exact ⟨n, Nat.lt_succ_self n, .inl hrest⟩
      · exact ⟨n, Nat.lt_succ_self n, .inr hrest⟩

end IsChoice

/-- One of two parts. -/
theorem either (ha : Compiles text a A) (hb : Compiles text b B) :
    Compiles text (fun next steps => Steps.add
        (.choose (a next steps).1 (b next (a next steps).2).1) (b next (a next steps).2).2)
      (fun i j => A i j ∨ B i j) where
  size_le next steps := by
    have hsize := (ha.size_le next steps).trans (hb.size_le next _)
    simp only [Steps.add, Array.size_push]
    omega
  keeps next steps :=
    ((ha.keeps next steps).trans (hb.keeps next _) (ha.size_le ..)).trans (.push _ _)
      ((ha.size_le ..).trans (hb.size_le ..))
  complete := by
    intro next steps final i j e hkept hR hreaches
    have hsize := ha.size_le next steps
    refine (isChoice_choose _ _).reaches (hkept.last (hsize.trans (hb.size_le ..))) ?_
    rcases hR with hA | hB
    · exact .inl (ha.complete (hb.kept hkept.of_push) hA hreaches)
    · exact .inr (hb.complete (hkept.of_push.mono hsize) hB hreaches)
  sound := by
    intro next steps final n i e hkept hn
    have hsize := ha.size_le next steps
    obtain ⟨m, hm, hfirst | hsecond⟩ :=
      (isChoice_choose _ _).leads (hkept.last (hsize.trans (hb.size_le ..))) hn
    · obtain ⟨j, l, hl, hA, hj⟩ := ha.sound (hb.kept hkept.of_push) hfirst
      exact ⟨j, l, hl.trans hm.le, .inl hA, hj⟩
    · obtain ⟨j, l, hl, hB, hj⟩ := hb.sound (hkept.of_push.mono hsize) hsecond
      exact ⟨j, l, hl.trans hm.le, .inr hB, hj⟩

section Optional

variable (h : Compiles text part R) (greedy : Bool) (next : Nat)

include h

/-- Optional rounds only add steps. -/
theorem optional_keeps (count rest : Nat) (steps : Steps) :
    steps.size ≤ (Steps.addOptional part greedy next count rest steps).2.size ∧
      Kept 0 steps (Steps.addOptional part greedy next count rest steps).2 := by
  induction count generalizing rest steps with
  | zero => exact ⟨le_rfl, .refl 0 steps⟩
  | succ count ih =>
      obtain ⟨hsize, hkept⟩ := ih (part rest steps).2.size
        ((part rest steps).2.push (Steps.orNot greedy (part rest steps).1 next))
      have hpart := h.size_le rest steps
      rw [Array.size_push] at hsize
      refine ⟨le_trans (by omega) hsize, ?_⟩
      exact (h.keeps rest steps).trans ((Kept.push _ _).trans hkept (by simp)) hpart

variable {greedy next}

/-- The first round that is added, the choice in front of it, and the rounds
added after it. -/
theorem optional_round {count rest : Nat} {steps final : Steps}
    (hkept : Kept steps.size (Steps.addOptional part greedy next (count + 1) rest steps).2 final) :
    Kept steps.size (part rest steps).2 final ∧
      final.getD (part rest steps).2.size .stop = Steps.orNot greedy (part rest steps).1 next ∧
      Kept ((part rest steps).2.push (Steps.orNot greedy (part rest steps).1 next)).size
        (Steps.addOptional part greedy next (count + 1) rest steps).2 final := by
  obtain ⟨hsize, hinner⟩ := h.optional_keeps greedy next count (part rest steps).2.size
    ((part rest steps).2.push (Steps.orNot greedy (part rest steps).1 next))
  have hpart := h.size_le rest steps
  have hpushed := (hinner.mono (Nat.zero_le steps.size)).trans hkept hsize
  refine ⟨hpushed.of_push, hpushed.last hpart, hkept.mono ?_⟩
  rw [Array.size_push]
  exact hpart.trans (Nat.le_succ _)

/-- Steps are added from the last round on, so the choice in front of a round is
what the rounds added after it end in. -/
theorem optional_complete {count rest : Nat} {steps final : Steps} {i e : Nat}
    (hkept : Kept steps.size (Steps.addOptional part greedy next count rest steps).2 final)
    (hreaches : (∃ j, Rounds R count i j ∧ Reaches final text (rest, j) e) ∨
      ∃ rounds < count, ∃ j, Rounds R rounds i j ∧ Reaches final text (next, j) e) :
    Reaches final text ((Steps.addOptional part greedy next count rest steps).1, i) e := by
  induction count generalizing rest steps with
  | zero =>
      rcases hreaches with ⟨j, rfl, hj⟩ | ⟨rounds, hlt, -⟩
      · exact hj
      · cases hlt
  | succ count ih =>
      obtain ⟨hround, hhere, hmore⟩ := h.optional_round hkept
      refine ih hmore ?_
      rcases hreaches with ⟨j, ⟨l, hl, hR⟩, hj⟩ | ⟨rounds, hlt, j, hrounds, hj⟩
      · exact .inl ⟨l, hl, (isChoice_orNot ..).reaches hhere (.inl (h.complete hround hR hj))⟩
      · rcases Nat.lt_succ_iff_lt_or_eq.mp hlt with hlt | rfl
        · exact .inr ⟨rounds, hlt, j, hrounds, hj⟩
        · exact .inl ⟨j, hrounds, (isChoice_orNot ..).reaches hhere (.inr hj)⟩

/-- Optional rounds match up to as many rounds as there are. -/
theorem optional_sound {count rest n : Nat} {steps final : Steps} {i e : Nat}
    (hkept : Kept steps.size (Steps.addOptional part greedy next count rest steps).2 final)
    (hn : Leads final text n ((Steps.addOptional part greedy next count rest steps).1, i) e) :
    ∃ j m, m ≤ n ∧ ((Rounds R count i j ∧ Leads final text m (rest, j) e) ∨
      ∃ rounds < count, Rounds R rounds i j ∧ Leads final text m (next, j) e) := by
  induction count generalizing rest steps with
  | zero => exact ⟨i, n, le_rfl, .inl ⟨rfl, hn⟩⟩
  | succ count ih =>
      obtain ⟨hround, hhere, hmore⟩ := h.optional_round hkept
      obtain ⟨j, m, hm, ⟨hrounds, hj⟩ | ⟨rounds, hlt, hrounds, hj⟩⟩ := ih hmore hn
      · obtain ⟨l, hl, hfirst | hsecond⟩ := (isChoice_orNot ..).leads hhere hj
        · obtain ⟨k, o, ho, hR, hk⟩ := h.sound hround hfirst
          exact ⟨k, o, by omega, .inl ⟨⟨j, hrounds, hR⟩, hk⟩⟩
        · exact ⟨j, l, by omega, .inr ⟨count, Nat.lt_succ_self count, hrounds, hsecond⟩⟩
      · exact ⟨j, m, hm, .inr ⟨rounds, hlt.trans (Nat.lt_succ_self count), hrounds, hj⟩⟩

variable (greedy) in
/-- A part so many times at most. -/
theorem optional (count : Nat) :
    Compiles text (fun next steps => Steps.addOptional part greedy next count next steps)
      (fun i j => ∃ rounds ≤ count, Rounds R rounds i j) where
  size_le next steps := (h.optional_keeps greedy next count next steps).1
  keeps next steps := (h.optional_keeps greedy next count next steps).2
  complete := by
    rintro next steps final i j e hkept ⟨rounds, hle, hrounds⟩ hreaches
    refine h.optional_complete hkept ?_
    rcases hle.lt_or_eq with hlt | rfl
    · exact .inr ⟨rounds, hlt, j, hrounds, hreaches⟩
    · exact .inl ⟨j, hrounds, hreaches⟩
  sound := by
    intro next steps final n i e hkept hn
    obtain ⟨j, m, hm, ⟨hrounds, hj⟩ | ⟨rounds, hlt, hrounds, hj⟩⟩ := h.optional_sound hkept hn
    · exact ⟨j, m, hm, ⟨count, le_rfl, hrounds⟩, hj⟩
    · exact ⟨j, m, hm, ⟨rounds, hlt.le, hrounds⟩, hj⟩

end Optional

/-- A part that may be left out. -/
theorem orNot (h : Compiles text part R) (greedy : Bool) :
    Compiles text (fun next steps => Steps.add
        (Steps.orNot greedy (part next steps).1 next) (part next steps).2)
      (fun i j => i = j ∨ R i j) := by
  cases greedy with
  | true => exact (h.either nothing).congr fun _ _ => or_comm
  | false => exact nothing.either h

section Loop

variable (h : Compiles text part R) (greedy : Bool)

include h

/-- A loop adds a step at least. -/
theorem loop_keeps (next : Nat) (steps : Steps) :
    steps.size < (Steps.addLoop part greedy next steps).2.2.size ∧
      Kept 0 steps (Steps.addLoop part greedy next steps).2.2 := by
  have hsize := h.size_le steps.size (steps.push .stop)
  have hkeeps := h.keeps steps.size (steps.push .stop)
  rw [Array.size_push] at hsize
  constructor
  · simpa [Steps.addLoop, Steps.add] using hsize
  · intro k _ hk
    exact (getD_set_of_ne (Nat.ne_of_gt hk) _).trans (hkeeps.of_push k (Nat.zero_le k) hk)

variable {greedy}

/-- The steps of a round, which lead back to the choice of another one. -/
theorem loop_round {next : Nat} {steps final : Steps}
    (hkept : Kept steps.size (Steps.addLoop part greedy next steps).2.2 final) :
    Kept (steps.push .stop).size (part steps.size (steps.push .stop)).2 final ∧
      final.getD steps.size .stop =
        Steps.orNot greedy (part steps.size (steps.push .stop)).1 next := by
  have hsize := h.size_le steps.size (steps.push .stop)
  rw [Array.size_push] at hsize
  constructor
  · intro k hk hlt
    rw [Array.size_push] at hk
    refine (hkept k (by omega) (by simpa [Steps.addLoop, Steps.add] using hlt)).trans ?_
    exact getD_set_of_ne (Nat.ne_of_lt hk) _
  · refine (hkept _ le_rfl (by simpa [Steps.addLoop, Steps.add] using hsize)).trans ?_
    exact getD_set hsize _

/-- A loop matches any number of rounds. -/
theorem loop_complete {next rounds : Nat} {steps final : Steps} {i j e : Nat}
    (hkept : Kept steps.size (Steps.addLoop part greedy next steps).2.2 final)
    (hrounds : Rounds R rounds i j) (hreaches : Reaches final text (next, j) e) :
    Reaches final text (steps.size, i) e := by
  obtain ⟨hround, hhere⟩ := h.loop_round hkept
  induction rounds generalizing i with
  | zero =>
      obtain rfl := hrounds
      exact (isChoice_orNot ..).reaches hhere (.inr hreaches)
  | succ rounds ih =>
      obtain ⟨l, hR, hmore⟩ := rounds_succ.mp hrounds
      exact (isChoice_orNot ..).reaches hhere (.inl (h.complete hround hR (ih hmore)))

/-- A loop matches nothing else than rounds. -/
theorem loop_sound {next n : Nat} {steps final : Steps} {i e : Nat}
    (hkept : Kept steps.size (Steps.addLoop part greedy next steps).2.2 final)
    (hn : Leads final text n (steps.size, i) e) :
    ∃ j m, m ≤ n ∧ (∃ rounds, Rounds R rounds i j) ∧ Leads final text m (next, j) e := by
  obtain ⟨hround, hhere⟩ := h.loop_round hkept
  -- a round may end where it began, so the place does not decrease; the moves that are left do
  induction n using Nat.strong_induction_on generalizing i with
  | _ n ih =>
      obtain ⟨m, hm, hfirst | hsecond⟩ := (isChoice_orNot ..).leads hhere hn
      · obtain ⟨l, o, ho, hR, hl⟩ := h.sound hround hfirst
        obtain ⟨j, q, hq, ⟨rounds, hrounds⟩, hj⟩ := ih o (by omega) hl
        exact ⟨j, q, by omega, ⟨rounds + 1, rounds_succ.mpr ⟨l, hR, hrounds⟩⟩, hj⟩
      · exact ⟨i, m, hm.le, ⟨0, rfl⟩, hsecond⟩

variable (greedy) in
/-- Any number of rounds, from the choice on. -/
theorem loop : Compiles text (fun next steps => (Steps.addLoop part greedy next steps).2)
    (fun i j => ∃ rounds, Rounds R rounds i j) where
  size_le next steps := (h.loop_keeps greedy next steps).1.le
  keeps next steps := (h.loop_keeps greedy next steps).2
  complete := by
    rintro next steps final i j e hkept ⟨rounds, hrounds⟩ hreaches
    exact h.loop_complete hkept hrounds hreaches
  sound := by
    intro next steps final n i e hkept hn
    exact h.loop_sound hkept hn

variable (greedy) in
/-- One round or more, from the first one on. -/
theorem loopOnce : Compiles text (fun next steps => ((Steps.addLoop part greedy next steps).1,
      (Steps.addLoop part greedy next steps).2.2))
    (fun i j => ∃ rounds, Rounds R (rounds + 1) i j) where
  size_le next steps := (h.loop_keeps greedy next steps).1.le
  keeps next steps := (h.loop_keeps greedy next steps).2
  complete := by
    rintro next steps final i j e hkept ⟨rounds, hrounds⟩ hreaches
    obtain ⟨l, hR, hmore⟩ := rounds_succ.mp hrounds
    exact h.complete (h.loop_round hkept).1 hR (h.loop_complete hkept hmore hreaches)
  sound := by
    intro next steps final n i e hkept hn
    obtain ⟨l, o, ho, hR, hl⟩ := h.sound (h.loop_round hkept).1 hn
    obtain ⟨j, m, hm, ⟨rounds, hrounds⟩, hj⟩ := h.loop_sound hkept hl
    exact ⟨j, m, hm.trans ho, ⟨rounds, rounds_succ.mpr ⟨l, hR, hrounds⟩⟩, hj⟩

end Loop

/-- A step for a class takes one character of it. -/
theorem take (c : CharClass) :
    Compiles text (fun next steps => Steps.add (.take c next) steps)
      (fun i j => (∃ d, text[i]? = some d ∧ c.holds d = true) ∧ j = i + 1) :=
  add (fun _ => Step.noConfusion) fun next i v => by
    rw [Step.moves, ← Option.any_eq_true]
    by_cases hc : text[i]?.any c.holds = true <;> simp [hc, Prod.ext_iff]

/-- The steps for a literal take its characters one after the other. -/
theorem literal (cs : List Char) :
    Compiles text (Steps.addLiteral cs) ((Pattern.literal cs).Spans text) := by
  induction cs with
  | nil => exact nothing.congr fun i j => by simp [Spans, eq_comm]
  | cons c cs ih =>
      refine ((take (.single c)).seq ih).congr fun i j => ?_
      constructor
      · rintro ⟨_, ⟨⟨d, hd, hc⟩, rfl⟩, hcs, rfl⟩
        obtain rfl := single_holds.mp hc
        obtain ⟨hi, rfl⟩ := List.getElem?_eq_some_iff.mp hd
        refine ⟨?_, by simp; omega⟩
        rw [List.drop_eq_getElem_cons hi]
        exact (List.prefix_cons_inj _).mpr hcs
      · rintro ⟨hcs, rfl⟩
        have hi : i < text.length := by
          have hlen := hcs.length_le
          simp at hlen
          omega
        rw [List.drop_eq_getElem_cons hi, List.cons_prefix_cons] at hcs
        refine ⟨i + 1, ⟨⟨c, ?_, single_holds.mpr rfl⟩, rfl⟩, hcs.2, by simp; omega⟩
        rw [List.getElem?_eq_getElem hi, hcs.1]

/-- The program of a pattern leads from one place to another if the pattern
matches in between. -/
theorem compile (text : List Char) (p : Pattern) :
    Compiles text p.compile (p.Spans text) := by
  induction p with
  | empty => exact nothing
  | literal cs => exact literal cs
  | one c => exact take c
  | boundary b =>
      refine add (fun _ => Step.noConfusion) fun next i v => ?_
      rw [Step.moves, Spans]
      by_cases hb : (Cursor.at text i).meets b = true <;> simp [hb, Prod.ext_iff, eq_comm]
  | sequence a b iha ihb => exact iha.seq ihb
  | alternative a b iha ihb => exact iha.either ihb
  | capture index p ih =>
      have hopen : Compiles text _ _ :=
        pass (.openGroup index) (fun _ => Step.noConfusion) fun _ _ => rfl
      have hclose : Compiles text _ _ :=
        pass (.closeGroup index) (fun _ => Step.noConfusion) fun _ _ => rfl
      exact (hopen.seq (ih.seq hclose)).congr fun i j => by simp [Spans]
  | repetition p min max greedy ih =>
      cases max with
      | some most =>
          refine ((ih.times min).seq (ih.optional greedy (most - min))).congr fun i k => ?_
          constructor
          · rintro ⟨j, hmin, rounds, hle, hmore⟩
            refine ⟨min + rounds, by omega, ?_, rounds_add.mpr ⟨j, hmin, hmore⟩⟩
            rintro _ ⟨rfl⟩
            omega
          · rintro ⟨rounds, hmin, hmost, hrounds⟩
            obtain ⟨more, rfl⟩ := Nat.exists_eq_add_of_le hmin
            obtain ⟨j, hfirst, hmore⟩ := rounds_add.mp hrounds
            have hle := hmost most rfl
            exact ⟨j, hfirst, more, by omega, hmore⟩
      | none =>
          cases min with
          | zero =>
              have hzero : ∀ i j, (∃ rounds, Rounds (p.Spans text) rounds i j) ↔
                  (repetition p 0 none greedy).Spans text i j := by simp [Spans]
              have hcompile : (repetition p 0 none greedy).compile = fun next steps =>
                  if p.takesSome then (Steps.addLoop p.compile greedy next steps).2
                  else Steps.add
                    (Steps.orNot greedy (Steps.addLoop p.compile greedy next steps).1 next)
                    (Steps.addLoop p.compile greedy next steps).2.2 := rfl
              rw [hcompile]
              split
              · exact (ih.loop greedy).congr hzero
              · refine ((ih.loopOnce greedy).orNot greedy).congr fun i j => ?_
                rw [← hzero]
                constructor
                · rintro (rfl | ⟨rounds, hrounds⟩)
                  exacts [⟨0, rfl⟩, ⟨rounds + 1, hrounds⟩]
                · rintro ⟨_ | rounds, hrounds⟩
                  exacts [.inl hrounds, .inr ⟨rounds, hrounds⟩]
          | succ min =>
              refine ((ih.times min).seq (ih.loopOnce greedy)).congr fun i k => ?_
              constructor
              · rintro ⟨j, hmin, rounds, hmore⟩
                exact ⟨min + (rounds + 1), by omega, by simp, rounds_add.mpr ⟨j, hmin, hmore⟩⟩
              · rintro ⟨rounds, hmin, -, hrounds⟩
                obtain ⟨more, rfl⟩ := Nat.exists_eq_add_of_le hmin
                rw [Nat.add_assoc, Nat.add_comm 1] at hrounds
                obtain ⟨j, hfirst, hmore⟩ := rounds_add.mp hrounds
                exact ⟨j, hfirst, more, hmore⟩

end Compiles

theorem program_stop (p : Pattern) : p.program.steps.getD 0 .stop = .stop :=
  (Compiles.compile [] p).keeps 0 #[.stop] 0 le_rfl Nat.one_pos

/-- A pattern's program leads from a place of a text to its end at another place
if and only if the pattern matches in between. -/
theorem program_reaches {p : Pattern} {text : List Char} {i j : Nat} :
    Reaches p.program.steps text (p.program.start, i) j ↔ p.Spans text i j := by
  have hcompiles := Compiles.compile text p
  constructor
  · rintro ⟨n, hn⟩
    obtain ⟨k, m, -, hspans, hk⟩ := hcompiles.sound (.refl _ _) hn
    exact hk.eq_of_stop (program_stop p) ▸ hspans
  · exact fun hspans => hcompiles.complete (.refl _ _) hspans ⟨0, .stop (program_stop p)⟩

end FilterQuery.Pattern
