import FilterQuery.Proofs.Registration

/-!
# Rejected registrations

A registration reports whether it has been accepted.  If it has not, the engine
is what it was: filters, operators with their handlers, the alphabet, parsers,
aggregators and settings are those from before the call.

There is one exception.  The aggregators `max` and `min` of an ordering are
added one after the other, each if its own name is free.  With exactly one of
the names taken, the call is rejected and has yet added the other aggregator.
-/

namespace FilterQuery

/-- A call that registers something with an engine. -/
inductive Registration (α : Type) : Type 1 where
  | filter (f : Filter α)
  | operator (token : String)
  | handler (operator : String) (lhs rhs : ValueType) (handler : Handler)
  | typedHandler {β γ : Type} [Scalar β] [Scalar γ] (operator : String) (related : β → γ → Bool)
  | parser (type : ValueType) (parser : Parser)
  | aggregator (name : String) (a : Aggregator α)
  | ordering (key : α → Option Value)

namespace Registration

/-- What a call reports: whether it has been accepted, or why it cannot be. -/
abbrev Report := Except RegistrationError Bool

def Report.isRejection : Report → Bool
  | .ok accepted => !accepted
  | .error _ => true

def isOrdering {α : Type} : Registration α → Bool
  | ordering _ => true
  | _ => false

end Registration

namespace AggregatorTable

variable {α : Type} {table table' : AggregatorTable α} {name : String} {a : Aggregator α}

/-- An aggregator that is added changes the table. -/
theorem insert?_ne (h : table.insert? name a = some table') : table' ≠ table := by
  unfold insert? at h
  split at h
  · cases h
  · obtain rfl := Option.some.inj h
    intro hsame
    have hlength := congrArg (fun t => t.entries.length) hsame
    simp at hlength

/-- An aggregator is accepted if its name is not taken. -/
theorem insert?_isSome : (table.insert? name a).isSome = !table.contains name := by
  unfold insert?
  cases table.contains name
  · rfl
  · rfl

/-- Adding an aggregator takes no other name. -/
theorem contains_insert? (h : table.insert? name a = some table') {other : String}
    (hother : Text.lowercase other ≠ Text.lowercase name) :
    table'.contains other = table.contains other := by
  unfold insert? at h
  split at h
  · cases h
  · obtain rfl := Option.some.inj h
    have hkey : (Text.lowercase other == Text.lowercase name) = false := beq_false_of_ne hother
    simp [contains, find?, List.lookup_append, List.lookup_cons, hkey]

end AggregatorTable

namespace Engine

variable {α : Type}

/-- What an attempt leaves: a registration that cannot be leaves the engine as
it is. -/
def settled (engine : Engine α) :
    Except RegistrationError (Engine α × Bool) → Engine α × Registration.Report
  | .ok (engine', accepted) => (engine', .ok accepted)
  | .error e => (engine, .error e)

/-- The engine behind a call, and what the call reports. -/
def register (engine : Engine α) : Registration α → Engine α × Registration.Report
  | .filter f => engine.settled (.ok (engine.addFilter f))
  | .operator token => engine.settled (engine.addOperator token)
  | .handler operator lhs rhs handler =>
    engine.settled ((engine.addHandler operator lhs rhs handler).map (·, true))
  | @Registration.typedHandler _ _ _ _ _ operator related =>
    engine.settled ((engine.addTypedHandler operator related).map (·, true))
  | .parser type parser => engine.settled (.ok (engine.addParser type parser, true))
  | .aggregator name a => engine.settled (.ok (engine.addAggregator name a))
  | .ordering key => engine.settled (.ok (engine.addOrdering key))

/-- Exactly one of the two names that an ordering takes is taken. -/
def hasHalfOrdering (engine : Engine α) : Bool :=
  engine.aggregators.contains "max" != engine.aggregators.contains "min"

/-- Both aggregators of an ordering are offered, whatever becomes of the
first. -/
theorem addOrdering_eq (engine : Engine α) (key : α → Option Value) :
    engine.addOrdering key =
      (((engine.addAggregator "max" (.max key)).1.addAggregator "min" (.min key)).1,
        (engine.addAggregator "max" (.max key)).2 &&
          ((engine.addAggregator "max" (.max key)).1.addAggregator "min" (.min key)).2) :=
  rfl

/-- **Calls lead from reachable engines to reachable ones.** -/
theorem Reachable.register {engine : Engine α} (h : engine.Reachable) (call : Registration α) :
    (engine.register call).1.Reachable := by
  have hhandler : ∀ operator lhs rhs handler,
      (engine.settled
        ((engine.addHandler operator lhs rhs handler).map (·, true))).1.Reachable := by
    intro operator lhs rhs handler
    cases hadd : engine.addHandler operator lhs rhs handler with
    | error e => exact h
    | ok engine' => exact h.step (.handler hadd)
  cases call with
  | filter f => exact h.step (.filter engine f)
  | operator token =>
      simp only [Engine.register]
      cases hadd : engine.addOperator token with
      | error e => exact h
      | ok found => exact h.step (.operator hadd)
  | handler operator lhs rhs handler => exact hhandler operator lhs rhs handler
  | typedHandler operator related => exact hhandler operator _ _ _
  | parser type parser => exact h.step (.parser engine type parser)
  | aggregator name a => exact h.step (.aggregator engine name a)
  | ordering key => exact (h.step (.aggregator engine "max" _)).step (.aggregator _ "min" _)

/-- A filter that is rejected changes nothing. -/
theorem addFilter_rejected {engine : Engine α} {f : Filter α}
    (h : (engine.addFilter f).2 = false) : (engine.addFilter f).1 = engine := by
  rcases engine.addFilter_cases f with ⟨hrejected, -⟩ | ⟨haccepted, -⟩
  · rw [hrejected]
  · cases haccepted.symm.trans h

/-- An operator that is rejected changes nothing. -/
theorem addOperator_rejected {engine engine' : Engine α} {token : String}
    (h : engine.addOperator token = .ok (engine', false)) : engine' = engine := by
  unfold addOperator at h
  split at h
  · cases h
  · split at h
    · cases h
      rfl
    · cases h

/-- An aggregator is accepted if its name is free, and only then the engine
changes. -/
theorem addAggregator_free (engine : Engine α) (name : String) (a : Aggregator α) :
    (engine.addAggregator name a).2 = !engine.aggregators.contains name := by
  rw [← AggregatorTable.insert?_isSome, addAggregator]
  split
  · next hnone => rw [hnone]; rfl
  · next hsome => rw [hsome]; rfl

/-- An aggregator whose name is taken changes nothing. -/
theorem addAggregator_taken {engine : Engine α} {name : String} (a : Aggregator α)
    (h : engine.aggregators.contains name = true) : (engine.addAggregator name a).1 = engine := by
  have hnone : engine.aggregators.insert? name a = none := by
    rw [AggregatorTable.insert?, if_pos h]
  rw [addAggregator, hnone]

/-- An aggregator whose name is free changes the table. -/
theorem addAggregator_ne {engine : Engine α} {name : String} (a : Aggregator α)
    (h : engine.aggregators.contains name = false) :
    (engine.addAggregator name a).1.aggregators ≠ engine.aggregators := by
  obtain ⟨table, htable⟩ : ∃ table, engine.aggregators.insert? name a = some table :=
    Option.isSome_iff_exists.mp (by rw [AggregatorTable.insert?_isSome, h]; rfl)
  rw [addAggregator, htable]
  exact AggregatorTable.insert?_ne htable

/-- An aggregator changes the table of aggregators alone. -/
theorem addAggregator_aggregators (engine : Engine α) (name : String) (a : Aggregator α) :
    (engine.addAggregator name a).1 =
      { engine with aggregators := (engine.addAggregator name a).1.aggregators } := by
  rw [addAggregator]
  split
  · rfl
  · rfl

/-- An aggregator leaves other names as free or taken as they are. -/
theorem contains_addAggregator (engine : Engine α) {name other : String} (a : Aggregator α)
    (hother : Text.lowercase other ≠ Text.lowercase name) :
    (engine.addAggregator name a).1.aggregators.contains other =
      engine.aggregators.contains other := by
  rw [addAggregator]
  split
  · rfl
  · next htable => exact AggregatorTable.contains_insert? htable hother

/-- An aggregator named `max` leaves `min` as free or taken as it is. -/
theorem contains_min_addAggregator_max (engine : Engine α) (a : Aggregator α) :
    (engine.addAggregator "max" a).1.aggregators.contains "min" =
      engine.aggregators.contains "min" :=
  engine.contains_addAggregator a (by decide +kernel)

/-- **An ordering that is rejected changes the engine if one of its names is
free.** -/
theorem addOrdering_rejected {engine : Engine α} {key : α → Option Value}
    (h : (engine.addOrdering key).2 = false) :
    (engine.addOrdering key).1 = engine ↔ engine.hasHalfOrdering = false := by
  rw [addOrdering_eq, hasHalfOrdering]
  rw [addOrdering_eq] at h
  dsimp only at h ⊢
  have hmin := engine.contains_min_addAggregator_max (.max key)
  rw [addAggregator_free, addAggregator_free, hmin] at h
  generalize hengine' : (engine.addAggregator "max" (.max key)).1 = engine' at hmin ⊢
  cases hmaxTaken : engine.aggregators.contains "max" with
  | true =>
      have hsame : engine' = engine := hengine' ▸ addAggregator_taken _ hmaxTaken
      cases hminTaken : engine.aggregators.contains "min" with
      | true =>
          rw [hsame, addAggregator_taken _ hminTaken]
          exact iff_of_true rfl rfl
      | false =>
          -- `max` is refused, and `min` is added for all that.
          rw [hsame]
          refine iff_of_false (fun heq => ?_) (by decide)
          exact addAggregator_ne _ hminTaken (congrArg Engine.aggregators heq)
  | false =>
      cases hminTaken : engine.aggregators.contains "min" with
      | true =>
          rw [addAggregator_taken _ (hmin.trans hminTaken), ← hengine']
          refine iff_of_false (fun heq => ?_) (by decide)
          exact addAggregator_ne _ hmaxTaken (congrArg Engine.aggregators heq)
      | false =>
          rw [hmaxTaken, hminTaken] at h
          cases h

/-- The aggregators of an ordering change the table of aggregators alone. -/
theorem addOrdering_aggregators (engine : Engine α) (key : α → Option Value) :
    (engine.addOrdering key).1 =
      { engine with aggregators := (engine.addOrdering key).1.aggregators } := by
  rw [addOrdering_eq]
  dsimp only
  rw [addAggregator_aggregators, addAggregator_aggregators engine "max"]

/-- What is left of an attempt that is rejected, if a rejected attempt changes
nothing. -/
theorem settled_rejected {engine : Engine α}
    {attempt : Except RegistrationError (Engine α × Bool)}
    (hattempt : ∀ engine', attempt = .ok (engine', false) → engine' = engine)
    (h : (engine.settled attempt).2.isRejection = true) : (engine.settled attempt).1 = engine := by
  match attempt with
  | .error e => rfl
  | .ok (engine', true) => cases h
  | .ok (engine', false) => exact hattempt engine' rfl

/-- Only a rejected ordering may have changed anything. -/
theorem rejected_cases {engine : Engine α} {call : Registration α}
    (h : (engine.register call).2.isRejection = true) :
    call.isOrdering = false ∧ (engine.register call).1 = engine ∨
      ∃ key, call = .ordering key := by
  have hhandler : ∀ {attempt : Except RegistrationError (Engine α)} {engine' : Engine α},
      attempt.map (·, true) ≠ .ok (engine', false) := by
    intro attempt engine' heq
    cases attempt with
    | error e => cases heq
    | ok engine'' => cases heq
  cases call with
  | filter f =>
      refine .inl ⟨rfl, settled_rejected (fun engine' heq => ?_) h⟩
      have hpair : engine.addFilter f = (engine', false) := Except.ok.inj heq
      rw [← addFilter_rejected (congrArg Prod.snd hpair), hpair]
  | operator token => exact .inl ⟨rfl, settled_rejected (fun _ => addOperator_rejected) h⟩
  | handler operator lhs rhs handler =>
      exact .inl ⟨rfl, settled_rejected (fun _ heq => absurd heq hhandler) h⟩
  | typedHandler operator related =>
      exact .inl ⟨rfl, settled_rejected (fun _ heq => absurd heq hhandler) h⟩
  | parser type parser => cases h
  | aggregator name a =>
      refine .inl ⟨rfl, settled_rejected (fun engine' heq => ?_) h⟩
      have hpair : engine.addAggregator name a = (engine', false) := Except.ok.inj heq
      have htaken : engine.aggregators.contains name = true := by
        have hfree := engine.addAggregator_free name a
        rw [hpair] at hfree
        simpa using hfree.symm
      rw [← addAggregator_taken a htaken, hpair]
  | ordering key => exact .inr ⟨key, rfl⟩

/-- **A rejected registration changes nothing**, unless it is an ordering with
exactly one of its names taken, and then all but the aggregators stays. -/
theorem rejected_registration_changes_nothing (engine : Engine α) (call : Registration α)
    (h : (engine.register call).2.isRejection = true) :
    ((engine.register call).1 = engine ↔
        ¬ (call.isOrdering = true ∧ engine.hasHalfOrdering = true)) ∧
      (engine.register call).1 =
        { engine with aggregators := (engine.register call).1.aggregators } := by
  rcases rejected_cases h with ⟨hcall, hsame⟩ | ⟨key, rfl⟩
  · rw [hsame, hcall]
    exact ⟨iff_of_true rfl fun hordering => Bool.noConfusion hordering.1, rfl⟩
  · have hrejected : (engine.addOrdering key).2 = false := by
      simpa [register, settled, Registration.Report.isRejection] using h
    refine ⟨(addOrdering_rejected hrejected).trans ?_, engine.addOrdering_aggregators key⟩
    simp [Registration.isOrdering]

/-- The number itself as its key. -/
def ownKey (n : Nat) : Option Value := some (.integer (Int64.ofNat n))

/-- Orderings by two keys: the second is rejected, and the engine keeps the
first. -/
theorem rejected_second_ordering :
    let engine := (({} : Engine Nat).addOrdering ownKey).1
    let call : Registration Nat := .ordering fun _ => none
    (engine.register call).2.isRejection = true ∧ (engine.register call).1 = engine := by
  intro engine call
  have hrejected : (engine.register call).2.isRejection = true := by decide +kernel
  have hwhole : engine.hasHalfOrdering = false := by decide +kernel
  refine ⟨hrejected, ?_⟩
  refine (rejected_registration_changes_nothing engine call hrejected).1.mpr fun hordering => ?_
  rw [hwhole] at hordering
  cases hordering.2

/-- **A rejected ordering adds an aggregator.**  With `min` taken the call is
rejected, but nested queries can use `max` from then on. -/
theorem rejected_ordering_adds_the_free_one :
    let engine := (({} : Engine Nat).addAggregator "min" .first).1
    let call : Registration Nat := .ordering ownKey
    engine.Reachable ∧ (engine.register call).2 = .ok false ∧
      engine.aggregators.contains "max" = false ∧
      (engine.register call).1.aggregators.contains "max" = true := by
  intro engine call
  have hreachable : engine.Reachable := Reachable.new.step (.aggregator _ "min" _)
  have hreport : (engine.addOrdering ownKey).2 = false := by decide +kernel
  exact ⟨hreachable, congrArg Except.ok hreport, by decide +kernel, by decide +kernel⟩

end Engine

end FilterQuery
