import Mathlib
import FilterQuery.Proofs.PatternSearches

/-!
# Which match is preferred

The matches of a pattern from a place on come in an order: those of the left
alternative before those of the right one, those of one more round before that
of no more if the repetition is greedy, and after it if it is lazy.  The search
finds the first of them.  Where an empty round may go on without an end, there
is no such order of the matches by their parts alone: which rounds are given up
depends on the steps that have been taken up.
-/

namespace FilterQuery.Pattern

variable {steps : Steps} {text : List Char}

/-- The places behind so many rounds. -/
def exactly (part : Nat → List Nat) : (count : Nat) → Nat → List Nat
  | 0, i => [i]
  | count + 1, i => (exactly part count i).flatMap part

/-- The places behind one more round and what follows it, and those behind no
more. -/
def further (greedy : Bool) (more none : List Nat) : List Nat :=
  if greedy then more ++ none else none ++ more

/-- The places behind so many rounds at most. -/
def upTo (part : Nat → List Nat) (greedy : Bool) : (count : Nat) → Nat → List Nat
  | 0, i => [i]
  | count + 1, i => further greedy ((part i).flatMap (upTo part greedy count)) [i]

/-- The places where matches from a place on end, the preferred one first.  No
more rounds take characters than the text has. -/
def ends (text : List Char) : Pattern → Nat → List Nat
  | empty, i => [i]
  | literal cs, i => if cs.isPrefixOf (text.drop i) then [i + cs.length] else []
  | one c, i => if text[i]?.any c.holds then [i + 1] else []
  | boundary b, i => if (Cursor.at text i).meets b then [i] else []
  | sequence a b, i => (a.ends text i).flatMap (b.ends text)
  | alternative a b, i => a.ends text i ++ b.ends text i
  | repetition p min max greedy, i =>
    (exactly (p.ends text) min i).flatMap
      (upTo (p.ends text) greedy ((max.map (· - min)).getD text.length))
  | capture _ p, i => p.ends text i

/-- Whatever is repeated without an end takes characters. -/
def Advances : Pattern → Prop
  | empty | literal _ | one _ | boundary _ => True
  | sequence a b | alternative a b => a.Advances ∧ b.Advances
  | repetition p _ max _ => p.Advances ∧ (max = none → p.takesSome = true)
  | capture _ p => p.Advances

/-- Rounds that take some characters each take as many times more. -/
theorem Rounds.add_le {R : Nat → Nat → Prop} {n rounds i j : Nat} (h : Rounds R rounds i j)
    (hR : ∀ i j, R i j → i + n ≤ j) : i + rounds * n ≤ j := by
  induction rounds generalizing j with
  | zero => simp [show i = j from h]
  | succ rounds ih =>
      obtain ⟨k, hrounds, hk⟩ := h
      have hle := hR k j hk
      rw [Nat.succ_mul]
      exact Nat.add_assoc .. ▸ (Nat.add_le_add_right (ih hrounds) n).trans hle

/-- A match takes as many characters as its pattern always takes, or more. -/
theorem Spans.add_le {p : Pattern} {n i j : Nat} (h : p.Spans text i j) (hn : p.least = some n) :
    i + n ≤ j := by
  induction p generalizing n i j with
  | empty | boundary =>
      simp only [least, Option.some.injEq] at hn
      simp only [Spans] at h
      omega
  | literal cs =>
      obtain rfl : cs.length = n := Option.some.inj hn
      exact h.2.ge
  | one c =>
      rw [least] at hn
      split at hn
      · cases hn
      · obtain rfl := Option.some.inj hn
        exact h.2.ge
  | sequence a b iha ihb =>
      obtain ⟨k, ha, hb⟩ := h
      simp only [least, Option.bind_eq_bind, Option.bind_eq_some_iff, Option.pure_def] at hn
      obtain ⟨l, hl, m, hm, hlm⟩ := hn
      cases hlm
      have hfirst := iha ha hl
      have hsecond := ihb hb hm
      omega
  | alternative a b iha ihb =>
      simp only [least, Option.bind_eq_bind, Option.bind_eq_some_iff, Option.pure_def] at hn
      obtain ⟨l, hl, m, hm, hlm⟩ := hn
      cases hlm
      rcases h with ha | hb
      · exact (Nat.add_le_add_left (Nat.min_le_left l m) i).trans (iha ha hl)
      · exact (Nat.add_le_add_left (Nat.min_le_right l m) i).trans (ihb hb hm)
  | repetition p min max greedy ih =>
      obtain ⟨rounds, hmin, -, hrounds⟩ := h
      obtain ⟨l, hl, rfl⟩ := Option.map_eq_some_iff.mp hn
      have hle := hrounds.add_le fun i j hR => ih hR hl
      exact (Nat.add_le_add_left (Nat.mul_le_mul_right l hmin) i).trans hle
  | capture index p ih => exact ih h hn

/-- A match from a place of the text on ends in the text. -/
theorem Spans.le_length {p : Pattern} {i j : Nat} (h : p.Spans text i j) :
    j ≤ max i text.length := by
  induction p generalizing i j with
  | empty => exact (show i = j from h) ▸ le_max_left ..
  | boundary => exact h.2 ▸ le_max_left ..
  | literal cs =>
      obtain ⟨hstarts, rfl⟩ := h
      have hlength := hstarts.length_le
      rw [List.length_drop] at hlength
      omega
  | one c =>
      obtain ⟨⟨d, hd, -⟩, rfl⟩ := h
      obtain ⟨hlt, -⟩ := List.getElem?_eq_some_iff.mp hd
      omega
  | sequence a b iha ihb =>
      obtain ⟨k, ha, hb⟩ := h
      have hfirst := iha ha
      have hsecond := ihb hb
      omega
  | alternative a b iha ihb => exact h.elim iha ihb
  | repetition p min max greedy ih =>
      obtain ⟨rounds, -, -, hrounds⟩ := h
      induction rounds generalizing j with
      | zero => exact (show i = j from hrounds) ▸ le_max_left ..
      | succ rounds ihrounds =>
          obtain ⟨k, hrounds, hk⟩ := hrounds
          have hfirst := ihrounds hrounds
          have hsecond := ih hk
          omega
  | capture index p ih => exact ih h

/-- A match of a pattern that takes characters does so. -/
theorem Spans.advances {p : Pattern} {i j : Nat} (h : p.Spans text i j) (hp : p.takesSome = true) :
    i < j ∧ j ≤ text.length := by
  obtain ⟨n, hn, hpos⟩ := Option.any_eq_true _ _ |>.mp hp
  have hadd := h.add_le hn
  have hlength := h.le_length
  have hpos := of_decide_eq_true hpos
  omega

/-- The ways from a step at a place on end at these places, the preferred one
first. -/
inductive Yields (steps : Steps) (text : List Char) : Nat × Nat → List Nat → Prop where
  | stop {k i : Nat} (hstep : steps.getD k .stop = .stop) : Yields steps text (k, i) [i]
  | move {k i : Nat} (es : Nat × Nat → List Nat) (hstep : steps.getD k .stop ≠ .stop)
      (h : ∀ v ∈ (steps.getD k .stop).moves text i, Yields steps text v (es v)) :
      Yields steps text (k, i) (((steps.getD k .stop).moves text i).flatMap es)

/-- The places where the ways end are those that the program reaches. -/
theorem Yields.mem_iff {v : Nat × Nat} {es : List Nat} (h : Yields steps text v es) {e : Nat} :
    e ∈ es ↔ Reaches steps text v e := by
  induction h with
  | @stop k i hstep =>
      rw [List.mem_singleton]
      constructor
      · rintro rfl
        exact ⟨0, .stop hstep⟩
      · rintro ⟨n, hn⟩
        exact (hn.eq_of_stop hstep).symm
  | move es hstep _ ih =>
      rw [List.mem_flatMap]
      constructor
      · rintro ⟨v, hv, he⟩
        obtain ⟨n, hn⟩ := (ih v hv).mp he
        exact ⟨n + 1, .move hv hn⟩
      · rintro ⟨_, hstop | ⟨hv, hn⟩⟩
        · exact absurd ‹_› hstep
        · exact ⟨_, hv, (ih _ hv).mpr ⟨_, hn⟩⟩

/-- The ways from a step end at one list of places. -/
theorem Yields.unique {v : Nat × Nat} {es es' : List Nat} (h : Yields steps text v es)
    (h' : Yields steps text v es') : es = es' := by
  induction h generalizing es' with
  | stop hstep =>
      cases h' with
      | stop => rfl
      | move _ hstep' => exact absurd hstep hstep'
  | move es hstep _ ih =>
      cases h' with
      | stop hstep' => exact absurd hstep' hstep
      | move es'' _ h'' => exact List.flatMap_congr fun v hv => ih v hv (h'' v hv)

/-- A choice yields the ends of its ways, those of the first one before those of
the second one. -/
theorem Yields.choose {k first second i : Nat} {es es' : List Nat}
    (hk : steps.getD k .stop = .choose first second) (hfirst : Yields steps text (first, i) es)
    (hsecond : Yields steps text (second, i) es') : Yields steps text (k, i) (es ++ es') := by
  -- the steps are one if the choice is between a step and itself
  have hboth : (if second = first then es else es') = es' := by
    split
    · next heq => exact hfirst.unique (heq ▸ hsecond)
    · rfl
  have hstep : steps.getD k .stop ≠ .stop := hk ▸ Step.noConfusion
  have hmoves : (steps.getD k .stop).moves text i = [(first, i), (second, i)] := by
    rw [hk, Step.moves]
  have hmove := Yields.move (fun v => if v.1 = first then es else es') hstep <| by
    rw [hmoves, List.forall_mem_cons, List.forall_mem_singleton, if_pos rfl, hboth]
    exact ⟨hfirst, hsecond⟩
  rw [hmoves] at hmove
  simpa [hboth] using hmove

/-- A greedy choice prefers one more round, and any other one prefers none. -/
theorem Yields.orNot {k round next i : Nat} {greedy : Bool} {es es' : List Nat}
    (hk : steps.getD k .stop = Steps.orNot greedy round next)
    (hround : Yields steps text (round, i) es) (hnext : Yields steps text (next, i) es') :
    Yields steps text (k, i) (further greedy es es') := by
  cases greedy with
  | true => exact .choose hk hround hnext
  | false => exact .choose hk hnext hround

/-- The steps that are added for a part lead to the ends of its matches, and go
on from there, in order. -/
structure Orders (text : List Char) (part : Nat → Steps → Nat × Steps) (f : Nat → List Nat) :
    Prop where
  yields : ∀ {next : Nat} {steps final : Steps} {i : Nat} {e : Nat → List Nat},
    Kept steps.size (part next steps).2 final → (∀ j ∈ f i, Yields final text (next, j) (e j)) →
    Yields final text ((part next steps).1, i) ((f i).flatMap e)

namespace Orders

variable {part a b : Nat → Steps → Nat × Steps} {R A B : Nat → Nat → Prop} {f g : Nat → List Nat}

/-- Ends that are the same are in the same order. -/
theorem congr (o : Orders text a f) (hfg : ∀ i, f i = g i) : Orders text a g :=
  funext hfg ▸ o

/-- No steps end where they begin. -/
theorem nothing : Orders text (fun next steps => (next, steps)) (fun i => [i]) := by
  refine ⟨fun {next steps final i es} _ hes => ?_⟩
  simpa using hes i (List.mem_singleton.mpr rfl)

/-- A step goes on to the places behind it in its own order. -/
theorem add {step : Nat → Step} (hstep : ∀ next, step next ≠ .stop)
    (hmoves : ∀ next i, (step next).moves text i = (f i).map fun j => (next, j)) :
    Orders text (fun next steps => Steps.add (step next) steps) f := by
  refine ⟨fun {next steps final i es} hkept hes => ?_⟩
  have hadded : final.getD steps.size .stop = step next := hkept.last le_rfl
  have hmove := Yields.move (k := steps.size) (i := i) (fun v => es v.2) (hadded ▸ hstep next) (by
    rw [hadded, hmoves]
    exact List.forall_mem_map.mpr hes)
  rwa [hadded, hmoves, List.flatMap_map] at hmove

/-- The ends of two parts are those of the second from each end of the first. -/
theorem seq (hb : Compiles text b B) (ha : Compiles text a A) (oa : Orders text a f)
    (ob : Orders text b g) :
    Orders text (fun next steps => a (b next steps).1 (b next steps).2)
      (fun i => (f i).flatMap g) := by
  refine ⟨fun {next steps final i es} hkept hes => ?_⟩
  rw [List.flatMap_assoc]
  refine oa.yields (hkept.mono (hb.size_le ..)) fun j hj => ob.yields (ha.kept hkept) fun k hk => ?_
  exact hes k (List.mem_flatMap.mpr ⟨j, hj, hk⟩)

/-- Rounds one after the other go on from each end of the one before. -/
theorem times (h : Compiles text part R) (o : Orders text part f) (count : Nat) :
    Orders text (Steps.addTimes part count) (exactly f count) := by
  induction count with
  | zero => exact nothing
  | succ count ih => exact seq h (h.times count) ih o

/-- The ends of a choice are those of the first part, and then those of the
second. -/
theorem either (ha : Compiles text a A) (hb : Compiles text b B) (oa : Orders text a f)
    (ob : Orders text b g) :
    Orders text (fun next steps => Steps.add
        (.choose (a next steps).1 (b next (a next steps).2).1) (b next (a next steps).2).2)
      (fun i => f i ++ g i) := by
  refine ⟨fun {next steps final i es} hkept hes => ?_⟩
  have hsize := ha.size_le next steps
  obtain ⟨hfirst, hsecond⟩ := List.forall_mem_append.mp hes
  rw [List.flatMap_append]
  exact .choose (hkept.last (hsize.trans (hb.size_le ..)))
    (oa.yields (hb.kept hkept.of_push) hfirst) (ob.yields (hkept.of_push.mono hsize) hsecond)

/-- What a repetition allows is one more round or none. -/
theorem mem_further {greedy : Bool} {more none : List Nat} {j : Nat} :
    j ∈ further greedy more none ↔ j ∈ more ∨ j ∈ none := by
  cases greedy <;> simp [further, or_comm]

/-- What follows a choice follows each of its ways. -/
theorem further_flatMap (greedy : Bool) (more none : List Nat) (es : Nat → List Nat) :
    (further greedy more none).flatMap es =
      further greedy (more.flatMap es) (none.flatMap es) := by
  cases greedy <;> simp [further]

/-- One round more comes before the others. -/
theorem exactly_succ (count i : Nat) :
    exactly f (count + 1) i = (f i).flatMap (exactly f count) := by
  induction count generalizing i with
  | zero => simp [exactly]
  | succ count ih =>
      rw [exactly, ih, List.flatMap_assoc]
      rfl

/-- So many rounds are allowed among as many at most. -/
theorem mem_upTo_of_exactly {greedy : Bool} {count rounds i j : Nat} (hle : rounds ≤ count)
    (hj : j ∈ exactly f rounds i) : j ∈ upTo f greedy count i := by
  induction count generalizing rounds i with
  | zero =>
      obtain rfl := Nat.le_zero.mp hle
      exact hj
  | succ count ih =>
      rw [upTo, mem_further]
      cases rounds with
      | zero => exact .inr hj
      | succ rounds =>
          rw [exactly_succ] at hj
          obtain ⟨k, hk, hj⟩ := List.mem_flatMap.mp hj
          exact .inl (List.mem_flatMap.mpr ⟨k, hk, ih (Nat.le_of_succ_le_succ hle) hj⟩)

/-- The places behind so many rounds at most, with what follows them: the last
round goes on in one way, those before it in another. -/
def upToThen (f : Nat → List Nat) (greedy : Bool) (es : Nat → List Nat) :
    (count : Nat) → (last : Nat → List Nat) → Nat → List Nat
  | 0, last => last
  | count + 1, last =>
    upToThen f greedy es count fun i => further greedy ((f i).flatMap last) (es i)

/-- One round more at most is that round with the others, or none. -/
theorem upToThen_succ (greedy : Bool) (es last : Nat → List Nat) (count i : Nat) :
    upToThen f greedy es (count + 1) last i =
      further greedy ((f i).flatMap (upToThen f greedy es count last)) (es i) := by
  induction count generalizing last i with
  | zero => rfl
  | succ count ih => rw [upToThen, ih]; rfl

/-- If the last round goes on like the others, all go on from the places behind
them. -/
theorem upToThen_self (greedy : Bool) (es : Nat → List Nat) (count i : Nat) :
    upToThen f greedy es count es i = (upTo f greedy count i).flatMap es := by
  induction count generalizing i with
  | zero => simp [upToThen, upTo]
  | succ count ih =>
      rw [upToThen_succ, upTo, further_flatMap, List.flatMap_assoc, List.flatMap_singleton]
      congr 1
      exact List.flatMap_congr fun j _ => ih j

/-- Optional rounds go on from their last one in one way and from those before
it in another. -/
theorem optional_last {greedy : Bool} {next count rest : Nat} {steps final : Steps} {i : Nat}
    {es last : Nat → List Nat} (h : Compiles text part R) (o : Orders text part f)
    (hkept : Kept steps.size (Steps.addOptional part greedy next count rest steps).2 final)
    (hlast : ∀ j ∈ exactly f count i, Yields final text (rest, j) (last j))
    (hes : ∀ rounds < count, ∀ j ∈ exactly f rounds i, Yields final text (next, j) (es j)) :
    Yields final text ((Steps.addOptional part greedy next count rest steps).1, i)
      (upToThen f greedy es count last i) := by
  induction count generalizing rest steps last with
  | zero => exact hlast i (List.mem_singleton.mpr rfl)
  | succ count ih =>
      obtain ⟨hround, hhere, hmore⟩ := h.optional_round hkept
      refine ih hmore (fun j hj => ?_) fun rounds hlt =>
        hes rounds (hlt.trans (Nat.lt_succ_self count))
      refine .orNot hhere (o.yields hround fun k hk => ?_) (hes count (Nat.lt_succ_self count) j hj)
      exact hlast k (List.mem_flatMap.mpr ⟨j, hj, hk⟩)

/-- Optional rounds end behind so many at most. -/
theorem optional (h : Compiles text part R) (o : Orders text part f) (greedy : Bool)
    (count : Nat) :
    Orders text (fun next steps => Steps.addOptional part greedy next count next steps)
      (upTo f greedy count) := by
  refine ⟨fun {next steps final i es} hkept hes => ?_⟩
  rw [← upToThen_self]
  exact optional_last h o hkept (fun j hj => hes j (mem_upTo_of_exactly le_rfl hj))
    fun rounds hlt j hj => hes j (mem_upTo_of_exactly hlt.le hj)

section Loop

variable (h : Compiles text part R) (o : Orders text part f)
  (hadvances : ∀ i, ∀ j ∈ f i, i < j ∧ j ≤ text.length)

include h o hadvances

/-- A loop ends behind any number of rounds that there is room for. -/
theorem loop_upTo {greedy : Bool} {next count i : Nat} {steps final : Steps} {es : Nat → List Nat}
    (hkept : Kept steps.size (Steps.addLoop part greedy next steps).2.2 final)
    (hcount : text.length ≤ count + i)
    (hes : ∀ j ∈ upTo f greedy count i, Yields final text (next, j) (es j)) :
    Yields final text (steps.size, i) ((upTo f greedy count i).flatMap es) := by
  obtain ⟨hround, hhere⟩ := h.loop_round hkept
  induction count generalizing i with
  | zero =>
      -- no character is left for another round
      have hnone : f i = [] := List.eq_nil_iff_forall_not_mem.mpr fun j hj => by
        have hj := hadvances i j hj
        omega
      have hmore : Yields final text ((part steps.size (steps.push .stop)).1, i) [] := by
        simpa [hnone] using o.yields (e := fun _ => []) hround (i := i) (by simp [hnone])
      have hchoice := Yields.orNot hhere hmore (hes i (List.mem_singleton.mpr rfl))
      cases greedy <;> simpa [upTo, further] using hchoice
  | succ count ih =>
      rw [upTo, further_flatMap, List.flatMap_assoc, List.flatMap_singleton]
      refine .orNot hhere (o.yields hround fun j hj => ih ?_ fun k hk => ?_) (hes i ?_)
      · have hj := hadvances i j hj
        omega
      · exact hes k (mem_further.mpr (.inl (List.mem_flatMap.mpr ⟨j, hj, hk⟩)))
      · exact mem_further.mpr (.inr (List.mem_singleton.mpr rfl))

/-- The steps of a loop end behind any number of rounds. -/
theorem loop (greedy : Bool) :
    Orders text (fun next steps => (Steps.addLoop part greedy next steps).2)
      (upTo f greedy text.length) := by
  refine ⟨fun {next steps final i es} hkept hes => ?_⟩
  exact loop_upTo h o hadvances hkept (Nat.le_add_right ..) hes

/-- A loop after one round ends behind one round or more. -/
theorem loopOnce (greedy : Bool) :
    Orders text (fun next steps => ((Steps.addLoop part greedy next steps).1,
      (Steps.addLoop part greedy next steps).2.2))
      (fun i => (f i).flatMap (upTo f greedy text.length)) := by
  refine ⟨fun {next steps final i es} hkept hes => ?_⟩
  rw [List.flatMap_assoc]
  refine o.yields (h.loop_round hkept).1 fun j hj => ?_
  exact loop_upTo h o hadvances hkept (Nat.le_add_right ..) fun k hk =>
    hes k (List.mem_flatMap.mpr ⟨j, hj, hk⟩)

end Loop

/-- The step for a class ends behind one character of it. -/
theorem take (c : CharClass) :
    Orders text (fun next steps => Steps.add (.take c next) steps) ((one c).ends text) :=
  add (fun _ => Step.noConfusion) fun next i => by
    rw [Step.moves, ends]
    split <;> rfl

/-- The steps for a literal end behind it. -/
theorem literal (cs : List Char) :
    Orders text (Steps.addLiteral cs) ((Pattern.literal cs).ends text) := by
  induction cs with
  | nil => exact nothing.congr fun i => by simp [ends]
  | cons c cs ih =>
      have hboth := seq (Compiles.literal cs) (Compiles.take (.single c)) (take (.single c)) ih
      refine hboth.congr fun i => ?_
      rcases Nat.lt_or_ge i text.length with hlt | hge
      · rw [ends, ends, List.drop_eq_getElem_cons hlt, List.getElem?_eq_getElem hlt,
          List.isPrefixOf_cons_cons, Option.any_some]
        by_cases hc : text[i] = c
        · simp [hc, ends, Nat.add_assoc, Nat.add_comm 1]
        · simp [hc, Ne.symm hc]
      · simp [ends, List.drop_eq_nil_of_le hge, List.getElem?_eq_none hge]

/-- A step that takes nothing ends where it begins. -/
theorem pass (step : Nat → Step) (hstep : ∀ next, step next ≠ .stop)
    (hmoves : ∀ next i, (step next).moves text i = [(next, i)]) :
    Orders text (fun next steps => Steps.add (step next) steps) (fun i => [i]) :=
  add hstep hmoves

/-- The way through the program of a pattern ends where its matches end, in
order. -/
theorem program_yields {p : Pattern} (o : Orders text p.compile (p.ends text)) (i : Nat) :
    Yields p.program.steps text (p.program.start, i) (p.ends text i) := by
  have hyields := o.yields (e := fun j => [j]) (.refl _ p.program.steps) (i := i)
    fun j _ => .stop (program_stop p)
  rwa [List.flatMap_singleton'] at hyields

/-- The places in order are those where a match ends. -/
theorem mem_ends {p : Pattern} (o : Orders text p.compile (p.ends text)) {i j : Nat} :
    j ∈ p.ends text i ↔ p.Spans text i j := by
  rw [← program_reaches]
  exact (program_yields o i).mem_iff

/-- The program of a pattern goes through its matches in order. -/
theorem compile {p : Pattern} (hp : p.Advances) : Orders text p.compile (p.ends text) := by
  induction p with
  | empty => exact nothing
  | literal cs => exact literal cs
  | one c => exact take c
  | boundary b =>
      refine add (fun _ => Step.noConfusion) fun next i => ?_
      rw [Step.moves, ends]
      split <;> rfl
  | sequence a b iha ihb =>
      exact seq (.compile text b) (.compile text a) (iha hp.1) (ihb hp.2)
  | alternative a b iha ihb =>
      exact either (.compile text a) (.compile text b) (iha hp.1) (ihb hp.2)
  | capture index p ih =>
      have hclose : Compiles text _ _ :=
        .pass (.closeGroup index) (fun _ => Step.noConfusion) fun _ _ => rfl
      have hopen : Compiles text _ _ :=
        .pass (.openGroup index) (fun _ => Step.noConfusion) fun _ _ => rfl
      have hinner := seq hclose (.compile text p) (ih hp)
        (pass (.closeGroup index) (fun _ => Step.noConfusion) fun _ _ => rfl)
      have houter := seq ((Compiles.compile text p).seq hclose) hopen
        (pass (.openGroup index) (fun _ => Step.noConfusion) fun _ _ => rfl) hinner
      exact houter.congr fun i => by simp [ends]
  | repetition p min max greedy ih =>
      have hpart := Compiles.compile text p
      have o := ih hp.1
      cases max with
      | some most =>
          exact seq (hpart.optional greedy _) (hpart.times min) (times hpart o min)
            (optional hpart o greedy _)
      | none =>
          have hadvances (i j : Nat) (hj : j ∈ p.ends text i) : i < j ∧ j ≤ text.length :=
            ((mem_ends o).mp hj).advances (hp.2 rfl)
          cases min with
          | zero =>
              have hcompile : (repetition p 0 none greedy).compile = fun next steps =>
                  (Steps.addLoop p.compile greedy next steps).2 := by
                funext next steps
                exact if_pos (hp.2 rfl)
              rw [hcompile]
              exact (loop hpart o hadvances greedy).congr fun i => by simp [ends, exactly]
          | succ min =>
              have hrounds := seq (hpart.loopOnce greedy) (hpart.times min) (times hpart o min)
                (loopOnce hpart o hadvances greedy)
              exact hrounds.congr fun i => by simp [ends, exactly, List.flatMap_assoc]

end Orders

/-- The step at the first place goes on to the second one. -/
def GoesOn (steps : Steps) (text : List Char) (u v : Nat × Nat) : Prop :=
  v ∈ (steps.getD u.1 .stop).moves text u.2

/-- No way comes back to where it has been if all of them end. -/
theorem Yields.not_cyclic {v : Nat × Nat} {es : List Nat} (h : Yields steps text v es) :
    ¬Relation.TransGen (GoesOn steps text) v v := by
  induction h with
  | stop hstep =>
      intro hcycle
      obtain ⟨u, hu, -⟩ := Relation.TransGen.head'_iff.mp hcycle
      rw [GoesOn, hstep] at hu
      cases hu
  | move _ _ _ ih =>
      intro hcycle
      obtain ⟨u, hu, hback⟩ := Relation.TransGen.head'_iff.mp hcycle
      exact ih u hu (.tail' hback hu)

open Classical in
/-- The ends of the ways from a step at a place on, if they all end. -/
noncomputable def endsFrom (steps : Steps) (text : List Char) (v : Nat × Nat) : List Nat :=
  if h : ∃ es, Yields steps text v es then h.choose else []

/-- What is computed from a step is what its ways end at. -/
theorem Yields.endsFrom_eq {v : Nat × Nat} {es : List Nat} (h : Yields steps text v es) :
    endsFrom steps text v = es := by
  have hsome : ∃ es, Yields steps text v es := ⟨es, h⟩
  rw [endsFrom, dif_pos hsome]
  exact hsome.choose_spec.unique h

/-- Behind a move there are ends of their own, and all ends come from the moves
in their order. -/
theorem Yields.of_move {v : Nat × Nat} {es : List Nat} (h : Yields steps text v es)
    (hstep : steps.getD v.1 .stop ≠ .stop) :
    (∀ u ∈ (steps.getD v.1 .stop).moves text v.2, ∃ es', Yields steps text u es') ∧
      es = ((steps.getD v.1 .stop).moves text v.2).flatMap (endsFrom steps text) := by
  cases h with
  | stop hstop => exact absurd hstop hstep
  | move es' _ h =>
      exact ⟨fun u hu => ⟨_, h u hu⟩, List.flatMap_congr fun u hu => (h u hu).endsFrom_eq.symm⟩

/-- What is left to do for each step taken up comes first, before anything else
that is waiting. -/
def Pending (steps : Steps) (text : List Char) (seen : Array Nat) (waiting : List (Nat × Nat)) :
    Prop :=
  ∀ v, IsSeen seen v → ∃ own others, waiting = own ++ others ∧
    (∀ u ∈ own, Relation.TransGen (GoesOn steps text) v u) ∧
    (endsFrom steps text v).head? = (own.flatMap (endsFrom steps text)).head?

variable {seen : Array Nat} {v : Nat × Nat} {es : List Nat} {waiting : List (Nat × Nat)}

/-- A step that has been taken up already has come to nothing. -/
theorem Pending.again (h : Pending steps text seen (v :: waiting)) (hseen : IsSeen seen v)
    (hv : Yields steps text v es) : es = [] ∧ Pending steps text seen waiting := by
  have hnil : es = [] := by
    obtain ⟨own, others, hwaiting, hbelow, hhead⟩ := h v hseen
    cases own with
    | nil => simpa [hv.endsFrom_eq] using hhead
    | cons u own =>
        -- the step would be below itself
        obtain ⟨rfl, -⟩ := List.cons.inj hwaiting
        exact absurd (hbelow v List.mem_cons_self) hv.not_cyclic
  refine ⟨hnil, fun u hu => ?_⟩
  obtain ⟨own, others, hwaiting, hbelow, hhead⟩ := h u hu
  cases own with
  | nil => exact ⟨[], waiting, rfl, by simp, hhead⟩
  | cons _ own =>
      obtain ⟨rfl, rfl⟩ := List.cons.inj hwaiting
      refine ⟨own, others, rfl, (List.forall_mem_cons.mp hbelow).2, ?_⟩
      rwa [List.flatMap_cons, hv.endsFrom_eq, hnil, List.nil_append] at hhead

/-- A step that is taken up leaves its moves to do. -/
theorem Pending.next (h : Pending steps text seen (v :: waiting)) (hv : Yields steps text v es)
    (hstep : steps.getD v.1 .stop ≠ .stop) (hplace : v.2 < seen.size) :
    Pending steps text (mark seen v)
      ((steps.getD v.1 .stop).moves text v.2 ++ waiting) := by
  obtain ⟨-, hends⟩ := hv.of_move hstep
  intro u hu
  rcases (isSeen_mark hplace).mp hu with hu | rfl
  · obtain ⟨own, others, hwaiting, hbelow, hhead⟩ := h u hu
    cases own with
    | nil => exact ⟨[], _, rfl, by simp, hhead⟩
    | cons _ own =>
        obtain ⟨rfl, rfl⟩ := List.cons.inj hwaiting
        obtain ⟨hbelow, hothers⟩ := List.forall_mem_cons.mp hbelow
        refine ⟨_ ++ own, others, (List.append_assoc ..).symm,
          List.forall_mem_append.mpr ⟨fun w hw => hbelow.tail hw, hothers⟩, ?_⟩
        rwa [List.flatMap_cons, hv.endsFrom_eq, hends, ← List.flatMap_append] at hhead
  · exact ⟨_, waiting, rfl, fun w hw => .single hw, hends ▸ hv.endsFrom_eq ▸ rfl⟩

/-- The search finds the first end of the ways in order. -/
theorem Follows.head {found : Option Cursor} {ways : List Way}
    (h : Follows steps seen ways found) (hsize : seen.size = text.length + 1)
    (hways : ∀ w ∈ ways, w.cursor.Stands text ∧ ∃ es, Yields steps text w.spot es)
    (hpending : Pending steps text seen (ways.map Way.spot)) :
    found.map Cursor.place = ((ways.map Way.spot).flatMap (endsFrom steps text)).head? := by
  induction h with
  | done => rfl
  | @again seen w ways _ hseen _ ih =>
      obtain ⟨⟨-, es, hw⟩, hways⟩ := List.forall_mem_cons.mp hways
      obtain ⟨rfl, hpending⟩ := Pending.again hpending hseen hw
      rw [ih hsize hways hpending, List.map_cons, List.flatMap_cons, hw.endsFrom_eq,
        List.nil_append]
  | @stop seen w ways _ hstep =>
      have hw : Yields steps text w.spot [w.cursor.place] := .stop hstep
      rw [List.map_cons, List.flatMap_cons, hw.endsFrom_eq]
      rfl
  | @next seen w ways _ _ hstep _ ih =>
      obtain ⟨⟨hstands, es, hw⟩, hways⟩ := List.forall_mem_cons.mp hways
      obtain ⟨hspots, hnext⟩ := Way.next_spots hstands (steps.getD w.step .stop)
      obtain ⟨hmoves, hends⟩ := hw.of_move hstep
      have hplace : w.cursor.place < seen.size := hsize ▸ Nat.lt_succ_of_le hstands.place_le
      have hfront : (Way.next w.cursor (steps.getD w.step .stop) ++ ways).map Way.spot =
          (steps.getD w.step .stop).moves text w.cursor.place ++ ways.map Way.spot := by
        rw [List.map_append, hspots]
      rw [ih (by simpa [mark] using hsize) ?_ ?_, hfront, List.map_cons, List.flatMap_cons,
        List.flatMap_append, hw.endsFrom_eq, hends]
      · rfl
      · refine List.forall_mem_append.mpr ⟨fun u hu => ⟨hnext u hu, hmoves _ ?_⟩, hways⟩
        exact hspots ▸ List.mem_map_of_mem hu
      · rw [hfront]
        exact Pending.next hpending hw hstep hplace

/-- The preferred match ends at the first of the places in order. -/
theorem preferred_head {p : Pattern} (hp : p.Advances) (text : List Char) :
    (p.preferred? text).map Cursor.place = (p.ends text 0).head? := by
  have o : Orders text p.compile (p.ends text) := .compile hp
  have hyields := o.program_yields 0
  have hhead := (follows_preferred p text).head Array.size_replicate
    (List.forall_mem_singleton.mpr ⟨stands_start text, _, hyields⟩)
    fun v hv => absurd hv not_isSeen_replicate
  have hends : endsFrom p.program.steps text (p.program.start, 0) = p.ends text 0 :=
    hyields.endsFrom_eq
  rwa [List.map_singleton, List.flatMap_singleton, Way.spot, hends] at hhead

end FilterQuery.Pattern
