import FilterQuery.Proofs.Registration
import Mathlib.Data.List.Basic
import Mathlib.Data.List.Induction

/-!
# Tables of handlers

Handlers are registered with an operator one after the other.  A later one takes
the place of an earlier one for the same pair of types, and the pair stays where
it first came in; the handler of two unspecific types is kept aside as the
fallback.

What an operator answers is settled by the history of its registrations.  A pair
has the handler that came in last for it, or else the last fallback.  The
right-hand types of a left-hand type are those that came in with it, each of
them once and in the order of their first times, and behind them the unspecific
type if some handler takes it.  Every operator of an engine has such a history,
those that it starts with included.
-/

namespace FilterQuery

/-- The first entry for a pair counts. -/
theorem lookup_entry_cons (pair : TypePair) (entry : TypePair × Handler)
    (table : List (TypePair × Handler)) :
    (entry :: table).lookup pair = if pair = entry.1 then some entry.2 else table.lookup pair := by
  obtain ⟨key, handler⟩ := entry
  rw [List.lookup_cons]
  by_cases h : pair = key
  · rw [if_pos h, beq_iff_eq.mpr h]
  · rw [if_neg h, beq_false_of_ne h]

namespace Operator

variable {op : Operator} {lhs rhs : ValueType}

/-- The pairs with a handler of their own, in order. -/
def keys (op : Operator) : List TypePair := op.handlers.map Prod.fst

/-- A pair has a key exactly if the table has a handler for it. -/
theorem mem_keys_iff_lookup {pair : TypePair} :
    pair ∈ op.keys ↔ (op.handlers.lookup pair).isSome = true := by
  rw [List.lookup_isSome_iff, keys, List.mem_map]
  simp only [beq_iff_eq, eq_comm (a := pair)]

/-- The specific right-hand types that are registered with a left-hand type, in
order. -/
def ownTypes (op : Operator) (lhs : ValueType) : List ValueType :=
  op.handlers.filterMap fun ((l, r), _) => if l = lhs ∧ r ≠ .any then some r else none

/-- The specific types listed are those that have a key with the left-hand
type. -/
theorem mem_ownTypes : rhs ∈ op.ownTypes lhs ↔ rhs ≠ .any ∧ (lhs, rhs) ∈ op.keys := by
  rw [ownTypes, List.mem_filterMap, keys, List.mem_map]
  constructor
  · rintro ⟨⟨⟨l, r⟩, h⟩, hmem, hsome⟩
    obtain ⟨⟨rfl, hany⟩, rfl⟩ : (l = lhs ∧ r ≠ .any) ∧ r = rhs := by simpa using hsome
    exact ⟨hany, _, hmem, rfl⟩
  · rintro ⟨hany, ⟨key, h⟩, hmem, rfl⟩
    exact ⟨_, hmem, if_pos ⟨rfl, hany⟩⟩

/-- The handler by which a right-hand type is listed: that of the pair, and for
the unspecific type else the fallback. -/
def listed? (op : Operator) (lhs rhs : ValueType) : Option Handler :=
  if rhs = .any then (op.pairHandler? lhs .any).or op.fallback else op.pairHandler? lhs rhs

/-- Behind the specific types the unspecific one may stand. -/
theorem rhsTypes_eq (op : Operator) (lhs : ValueType) :
    op.rhsTypes lhs =
      if (op.listed? lhs .any).isSome then op.ownTypes lhs ++ [.any] else op.ownTypes lhs := by
  have hor : (op.listed? lhs .any).isSome =
      ((op.pairHandler? lhs .any).isSome || op.fallback.isSome) := by
    rw [listed?, if_pos rfl, Option.isSome_or]
  rw [hor]
  rfl

/-- **The types that are listed are those with a handler.** -/
theorem mem_rhsTypes : rhs ∈ op.rhsTypes lhs ↔ (op.listed? lhs rhs).isSome = true := by
  rw [rhsTypes_eq]
  by_cases hany : rhs = .any
  · subst hany
    have hspecific : .any ∉ op.ownTypes lhs := fun hmem => (mem_ownTypes.mp hmem).1 rfl
    split
    · next hlisted => exact iff_of_true (List.mem_append_right _ List.mem_cons_self) hlisted
    · next hlisted => exact iff_of_false hspecific hlisted
  · have hown : rhs ∈ op.ownTypes lhs ↔ (op.listed? lhs rhs).isSome = true := by
      rw [mem_ownTypes, and_iff_right hany, mem_keys_iff_lookup, listed?, if_neg hany, pairHandler?]
    split
    · rw [List.mem_append, List.mem_singleton, or_iff_left hany, hown]
    · exact hown

/-- **A listed type is handled as it is listed.** -/
theorem resolve?_of_listed {h : Handler} (hlisted : op.listed? lhs rhs = some h) :
    op.resolve? lhs rhs = some h := by
  rw [listed?] at hlisted
  split at hlisted
  · next hany => rw [resolve?, hany, hlisted]
  · rw [resolve?, hlisted]
    rfl

/-- A type that is not listed has no handler, unless the unspecific type is
listed. -/
theorem resolve?_of_not_listed (hrhs : op.listed? lhs rhs = none)
    (hany : op.listed? lhs .any = none) : op.resolve? lhs rhs = none := by
  rw [listed?, if_pos rfl, Option.or_eq_none_iff] at hany
  rw [resolve?, hany.2, Option.or_none]
  rw [listed?] at hrhs
  split at hrhs
  · next heq => rw [heq, hany.1]
  · exact hrhs

end Operator

/-- The registrations of handlers with one operator, the first one in front. -/
abbrev HandlerHistory := List (TypePair × Handler)

namespace HandlerHistory

/-- The pairs that handlers were registered for. -/
def pairs (history : HandlerHistory) : List TypePair := history.map Prod.fst

/-- The number of registrations before the first one for a pair. -/
def firstAt (history : HandlerHistory) (pair : TypePair) : Nat := history.pairs.idxOf pair

/-- The handler was registered for a pair, and no other for the same pair after
it. -/
def IsLast (history : HandlerHistory) (pair : TypePair) (handler : Handler) : Prop :=
  ∃ before after : HandlerHistory,
    history = before ++ (pair, handler) :: after ∧ pair ∉ after.pairs

/-- The handler that was registered last for a pair. -/
def last? (history : HandlerHistory) (pair : TypePair) : Option Handler :=
  history.reverse.lookup pair

variable {history : HandlerHistory} {pair : TypePair} {handler : Handler}

/-- A history gives the handler that was registered last. -/
theorem last?_eq_some_iff : history.last? pair = some handler ↔ history.IsLast pair handler := by
  have hskipped : ∀ after : HandlerHistory,
      (∀ entry ∈ after, (pair != entry.1) = true) ↔ pair ∉ after.pairs := by
    intro after
    simp only [bne_iff_ne, pairs, List.mem_map, not_exists, not_and]
    exact forall₂_congr fun entry _ => ne_comm
  rw [last?, List.lookup_eq_some_iff]
  constructor
  · rintro ⟨after, before, hsplit, hafter⟩
    refine ⟨before.reverse, after.reverse, by simpa using congrArg List.reverse hsplit,
      (hskipped _).mp fun entry hmem => hafter entry (List.mem_reverse.mp hmem)⟩
  · rintro ⟨before, after, rfl, hafter⟩
    exact ⟨after.reverse, before.reverse, by simp, fun entry hmem =>
      (hskipped after).mpr hafter entry (List.mem_reverse.mp hmem)⟩

/-- A history gives a handler exactly for the pairs in it. -/
theorem last?_isSome : (history.last? pair).isSome = true ↔ pair ∈ history.pairs := by
  rw [last?, List.lookup_isSome_iff, pairs, List.mem_map]
  simp only [List.mem_reverse, beq_iff_eq, eq_comm (a := pair)]

/-- A registration is the last one for its pair, and nothing new for any
other. -/
theorem last?_concat (history : HandlerHistory) (pair other : TypePair) (handler : Handler) :
    HandlerHistory.last? (history ++ [(pair, handler)]) other =
      if other = pair then some handler else history.last? other := by
  rw [last?, List.reverse_append, List.reverse_singleton, List.singleton_append, lookup_entry_cons,
    last?]

/-- A registration at the end adds its pair. -/
theorem pairs_concat (history : HandlerHistory) (entry : TypePair × Handler) :
    HandlerHistory.pairs (history ++ [entry]) = history.pairs ++ [entry.1] := List.map_append

/-- The first time of a pair is settled once and for all. -/
theorem firstAt_concat (h : pair ∈ history.pairs) (entry : TypePair × Handler) :
    HandlerHistory.firstAt (history ++ [entry]) pair = history.firstAt pair := by
  rw [firstAt, pairs_concat, List.idxOf_append_of_mem h, firstAt]

/-- A pair that is new comes in after all others. -/
theorem firstAt_lt_firstAt_concat (h : pair ∈ history.pairs) {entry : TypePair × Handler}
    (hnew : entry.1 ∉ history.pairs) :
    HandlerHistory.firstAt (history ++ [entry]) pair <
      HandlerHistory.firstAt (history ++ [entry]) entry.1 := by
  have hpast : history.firstAt pair < history.pairs.length := List.idxOf_lt_length_of_mem h
  calc HandlerHistory.firstAt (history ++ [entry]) pair
      = history.firstAt pair := firstAt_concat h entry
    _ < history.pairs.length + [entry.1].idxOf entry.1 := by omega
    _ = HandlerHistory.firstAt (history ++ [entry]) entry.1 := by
        rw [firstAt, pairs_concat, List.idxOf_append_of_notMem hnew]

end HandlerHistory

namespace Operator

variable {op : Operator} {lhs rhs : ValueType} {history : HandlerHistory}

/-- A handler that is put in is the one for its pair. -/
theorem lookup_putHandler_self (key : TypePair) (handler : Handler)
    (table : List (TypePair × Handler)) :
    (putHandler key handler table).lookup key = some handler := by
  induction table with
  | nil => rw [putHandler, List.lookup_cons_self]
  | cons entry table ih =>
      obtain ⟨k, h⟩ := entry
      rw [putHandler]
      split
      · next hk => rw [hk, List.lookup_cons_self]
      · next hk => rw [lookup_entry_cons, if_neg (Ne.symm hk), ih]

/-- A handler that is put in leaves those of other pairs. -/
theorem lookup_putHandler_of_ne {key pair : TypePair} (hne : pair ≠ key) (handler : Handler)
    (table : List (TypePair × Handler)) :
    (putHandler key handler table).lookup pair = table.lookup pair := by
  induction table with
  | nil => rw [putHandler, lookup_entry_cons, if_neg hne]
  | cons entry table ih =>
      obtain ⟨k, h⟩ := entry
      rw [putHandler]
      split
      · next hk =>
          subst hk
          rw [lookup_entry_cons, lookup_entry_cons, if_neg hne, if_neg hne]
      · rw [lookup_entry_cons, lookup_entry_cons, ih]

/-- A handler takes the place of an earlier one for its pair, or else the place
at the end. -/
theorem keys_putHandler (key : TypePair) (handler : Handler) (table : List (TypePair × Handler)) :
    (putHandler key handler table).map Prod.fst =
      if key ∈ table.map Prod.fst then table.map Prod.fst else table.map Prod.fst ++ [key] := by
  induction table with
  | nil => rfl
  | cons entry table ih =>
      obtain ⟨k, h⟩ := entry
      rw [putHandler]
      split
      · next hk => simp [hk]
      · next hk =>
          simp only [List.map_cons, ih, List.mem_cons, Ne.symm hk, false_or]
          split
          · rfl
          · rfl

/-- A handler for specific types comes into the table. -/
theorem addHandler_of_specific (op : Operator) (handler : Handler)
    (h : (lhs, rhs) ≠ (.any, .any)) :
    op.addHandler lhs rhs handler =
      { op with handlers := putHandler (lhs, rhs) handler op.handlers } :=
  if_neg fun hany => h (Prod.ext hany.1 hany.2)

/-- A handler for unspecific types is the fallback. -/
theorem addHandler_of_unspecific (op : Operator) (handler : Handler) :
    op.addHandler .any .any handler = { op with fallback := some handler } :=
  if_pos ⟨rfl, rfl⟩

/-- The table of an operator holds what is left of a history. -/
structure Reflects (op : Operator) (history : HandlerHistory) : Prop where
  /-- A pair has the handler that came in last for it. -/
  specific : ∀ pair ≠ (.any, .any), op.handlers.lookup pair = history.last? pair
  /-- What came in for two unspecific types is not in the table. -/
  unspecific : op.handlers.lookup (.any, .any) = none
  fallback : op.fallback = history.last? (.any, .any)
  /-- The pairs stand in the order of their first times. -/
  ordered : op.keys.Pairwise fun p q => history.firstAt p < history.firstAt q

/-- The operator after a history of registrations. -/
def ofHistory (token : String) (history : HandlerHistory) : Operator :=
  history.foldl (fun op entry => op.addHandler entry.1.1 entry.1.2 entry.2) { token }

/-- A registration at the end is made behind all others. -/
theorem ofHistory_concat (token : String) (history : HandlerHistory) (lhs rhs : ValueType)
    (handler : Handler) :
    ofHistory token (history ++ [((lhs, rhs), handler)]) =
      (ofHistory token history).addHandler lhs rhs handler :=
  List.foldl_concat ..

namespace Reflects

/-- The table holds the pairs of the history, up to the one of two unspecific
types. -/
theorem mem_keys (h : op.Reflects history) {pair : TypePair} :
    pair ∈ op.keys ↔ pair ≠ (.any, .any) ∧ pair ∈ history.pairs := by
  rw [mem_keys_iff_lookup]
  by_cases hpair : pair = (.any, .any)
  · rw [hpair, h.unspecific]
    exact iff_of_false Bool.false_ne_true fun hany => hany.1 rfl
  · rw [and_iff_right hpair, h.specific pair hpair, HandlerHistory.last?_isSome]

/-- What stands in order in the table still does when the history goes on. -/
theorem ordered_concat (h : op.Reflects history) (entry : TypePair × Handler) :
    op.keys.Pairwise fun p q =>
      HandlerHistory.firstAt (history ++ [entry]) p <
        HandlerHistory.firstAt (history ++ [entry]) q := by
  refine h.ordered.imp_of_mem fun {p q} hp hq hlt => ?_
  rwa [HandlerHistory.firstAt_concat (h.mem_keys.mp hp).2,
    HandlerHistory.firstAt_concat (h.mem_keys.mp hq).2]

/-- A new fallback changes nothing in the table. -/
theorem addHandler_unspecific (h : op.Reflects history) (handler : Handler) :
    (op.addHandler .any .any handler).Reflects (history ++ [((.any, .any), handler)]) := by
  rw [addHandler_of_unspecific]
  constructor
  case specific =>
    intro pair hpair
    rw [HandlerHistory.last?_concat, if_neg hpair]
    exact h.specific pair hpair
  case unspecific => exact h.unspecific
  case fallback => rw [HandlerHistory.last?_concat, if_pos rfl]
  case ordered => exact h.ordered_concat _

/-- A handler of a pair replaces the one before it where that stands, or comes
in at the end. -/
theorem addHandler_specific (h : op.Reflects history) (hpair : (lhs, rhs) ≠ (.any, .any))
    (handler : Handler) :
    (op.addHandler lhs rhs handler).Reflects (history ++ [((lhs, rhs), handler)]) := by
  rw [addHandler_of_specific op handler hpair]
  constructor
  case specific =>
    intro pair hother
    rw [HandlerHistory.last?_concat]
    split
    · next heq => rw [heq, lookup_putHandler_self]
    · next hne => rw [lookup_putHandler_of_ne hne, h.specific pair hother]
  case unspecific =>
    rw [lookup_putHandler_of_ne (Ne.symm hpair)]
    exact h.unspecific
  case fallback =>
    rw [HandlerHistory.last?_concat, if_neg (Ne.symm hpair)]
    exact h.fallback
  case ordered =>
    rw [keys, keys_putHandler]
    split
    · exact h.ordered_concat _
    · next hkey =>
        -- The pair is no key and not the unspecific one, so it is new to the history as well.
        have hnew : (lhs, rhs) ∉ history.pairs := fun hmem => hkey (h.mem_keys.mpr ⟨hpair, hmem⟩)
        rw [List.pairwise_append]
        refine ⟨h.ordered_concat _, List.pairwise_singleton _ _, fun p hp q hq => ?_⟩
        obtain rfl := List.mem_singleton.mp hq
        exact HandlerHistory.firstAt_lt_firstAt_concat (h.mem_keys.mp hp).2 hnew

/-- **One more registration is one more entry of the history.** -/
theorem addHandler (h : op.Reflects history) (lhs rhs : ValueType) (handler : Handler) :
    (op.addHandler lhs rhs handler).Reflects (history ++ [((lhs, rhs), handler)]) := by
  by_cases hpair : (lhs, rhs) = (.any, .any)
  · obtain ⟨rfl, rfl⟩ := Prod.mk.inj hpair
    exact h.addHandler_unspecific handler
  · exact h.addHandler_specific hpair handler

end Reflects

/-- **The table of an operator reflects the history of its registrations.** -/
theorem reflects_ofHistory (token : String) (history : HandlerHistory) :
    (ofHistory token history).Reflects history := by
  induction history using List.reverseRecOn with
  | nil => exact ⟨fun _ _ => rfl, rfl, rfl, .nil⟩
  | append_singleton history entry ih =>
      obtain ⟨⟨lhs, rhs⟩, handler⟩ := entry
      rw [ofHistory_concat]
      exact ih.addHandler lhs rhs handler

namespace Reflects

variable (h : op.Reflects history)

include h

/-- A pair is resolved to the handler that came in last for it, or else to the
last fallback.  For the pair of two unspecific types these are one. -/
theorem resolve?_eq (lhs rhs : ValueType) :
    op.resolve? lhs rhs = (history.last? (lhs, rhs)).or (history.last? (.any, .any)) := by
  rw [resolve?, pairHandler?, h.fallback]
  by_cases hpair : (lhs, rhs) = (.any, .any)
  · rw [hpair, h.unspecific, Option.or_self, Option.none_or]
  · rw [h.specific _ hpair]

/-- A pair is resolved to its own last handler, or else to the last fallback. -/
theorem resolve?_eq_some_iff (lhs rhs : ValueType) (handler : Handler) :
    op.resolve? lhs rhs = some handler ↔
      if (lhs, rhs) ≠ (.any, .any) ∧ (lhs, rhs) ∈ history.pairs
      then history.IsLast (lhs, rhs) handler
      else history.IsLast (.any, .any) handler := by
  simp only [← HandlerHistory.last?_eq_some_iff, h.resolve?_eq]
  split
  · next hadded =>
      obtain ⟨last, hlast⟩ := Option.isSome_iff_exists.mp
        (HandlerHistory.last?_isSome.mpr hadded.2)
      rw [hlast, Option.some_or]
  · next hadded =>
      by_cases hpair : (lhs, rhs) = (.any, .any)
      · rw [hpair, Option.or_self]
      · have hnone : history.last? (lhs, rhs) = none := by
          rw [← Option.not_isSome_iff_eq_none, HandlerHistory.last?_isSome]
          exact fun hmem => hadded ⟨hpair, hmem⟩
        rw [hnone, Option.none_or]

/-- A pair is not resolved exactly if there is neither a handler for it nor a
fallback. -/
theorem resolve?_eq_none_iff (lhs rhs : ValueType) :
    op.resolve? lhs rhs = none ↔
      (lhs, rhs) ∉ history.pairs ∧ (.any, .any) ∉ history.pairs := by
  rw [h.resolve?_eq, Option.or_eq_none_iff, ← Option.not_isSome_iff_eq_none,
    ← Option.not_isSome_iff_eq_none, HandlerHistory.last?_isSome, HandlerHistory.last?_isSome]

/-- The unspecific type is listed if it came in with the left-hand type, or as a
fallback. -/
theorem listed?_any_isSome (lhs : ValueType) :
    (op.listed? lhs .any).isSome = true ↔
      (lhs, .any) ∈ history.pairs ∨ (.any, .any) ∈ history.pairs := by
  rw [listed?, if_pos rfl]
  have hresolve := h.resolve?_eq lhs .any
  rw [resolve?] at hresolve
  rw [hresolve, Option.isSome_or, Bool.or_eq_true, HandlerHistory.last?_isSome,
    HandlerHistory.last?_isSome]

/-- The specific types listed are those in the history. -/
theorem mem_ownTypes_iff (lhs rhs : ValueType) :
    rhs ∈ op.ownTypes lhs ↔ rhs ≠ .any ∧ (lhs, rhs) ∈ history.pairs := by
  rw [mem_ownTypes, h.mem_keys]
  refine and_congr_right fun hany => and_iff_right fun hpair => ?_
  exact hany (Prod.mk.inj hpair).2

/-- Specific types stand in the order of their first times. -/
theorem ownTypes_ordered (lhs : ValueType) :
    (op.ownTypes lhs).Pairwise fun r s => history.firstAt (lhs, r) < history.firstAt (lhs, s) := by
  refine (List.pairwise_map.mp h.ordered).filterMap _ ?_
  rintro ⟨⟨l, r⟩, _⟩ ⟨⟨l', r'⟩, _⟩ hlt s hs s' hs'
  obtain ⟨⟨rfl, -⟩, rfl⟩ : (l = lhs ∧ r ≠ .any) ∧ r = s := by simpa using hs
  obtain ⟨⟨rfl, -⟩, rfl⟩ : (l' = l ∧ r' ≠ .any) ∧ r' = s' := by simpa using hs'
  exact hlt

end Reflects

/-- **Operators keep the last handlers in the order of the first.**  After any
history of registrations a pair is resolved to the handler that came in last for
it, if the pair is specific and one came in, or else to the last handler of two
unspecific types; there is none if neither pair came in.  The right-hand types
of a left-hand type are the specific ones that came in with it, without
repetition and in the order in which they first did, followed by the unspecific
one exactly if that came in with the left-hand type or as a fallback.  All of
them are resolved to a handler. -/
theorem last_handlers_in_first_order (token : String) (history : HandlerHistory)
    (lhs : ValueType) :
    (∀ rhs handler, (ofHistory token history).resolve? lhs rhs = some handler ↔
        if (lhs, rhs) ≠ (.any, .any) ∧ (lhs, rhs) ∈ history.pairs
        then history.IsLast (lhs, rhs) handler
        else history.IsLast (.any, .any) handler) ∧
      (∀ rhs, (ofHistory token history).resolve? lhs rhs = none ↔
        (lhs, rhs) ∉ history.pairs ∧ (.any, .any) ∉ history.pairs) ∧
      (∃ own : List ValueType,
        (ofHistory token history).rhsTypes lhs =
          (if (lhs, .any) ∈ history.pairs ∨ (.any, .any) ∈ history.pairs then own ++ [.any]
            else own) ∧
        own.Nodup ∧
        (∀ rhs, rhs ∈ own ↔ rhs ≠ .any ∧ (lhs, rhs) ∈ history.pairs) ∧
        own.Pairwise fun r s => history.firstAt (lhs, r) < history.firstAt (lhs, s)) ∧
      ∀ rhs ∈ (ofHistory token history).rhsTypes lhs,
        ∃ handler, (ofHistory token history).resolve? lhs rhs = some handler := by
  have h := reflects_ofHistory token history
  have hordered := h.ownTypes_ordered lhs
  have hnodup : ((ofHistory token history).ownTypes lhs).Nodup :=
    hordered.imp fun hlt =>
      ne_of_apply_ne (fun rhs => history.firstAt (lhs, rhs)) (Nat.ne_of_lt hlt)
  refine ⟨h.resolve?_eq_some_iff lhs, h.resolve?_eq_none_iff lhs,
    ⟨_, ?_, hnodup, h.mem_ownTypes_iff lhs, hordered⟩, fun rhs hmem => ?_⟩
  · rw [rhsTypes_eq]
    simp only [h.listed?_any_isSome]
  · obtain ⟨handler, hlisted⟩ := Option.isSome_iff_exists.mp (mem_rhsTypes.mp hmem)
    exact ⟨handler, resolve?_of_listed hlisted⟩

/-- Six registrations with the operator `~`: the second one for integers and
strings leaves these in front, and the second fallback answers for all pairs
that did not come in. -/
theorem handlers_after_replacements :
    let yes : Handler := { holds := fun _ _ _ => true }
    let no : Handler := { holds := fun _ _ _ => false }
    let history : HandlerHistory :=
      [((.integer, .string), no), ((.any, .any), no), ((.integer, .integer), no),
        ((.integer, .string), yes), ((.string, .any), no), ((.any, .any), yes)]
    let op := ofHistory "~" history
    op.resolve? .integer .string = some yes ∧ op.resolve? .integer .boolean = some yes ∧
      op.rhsTypes .integer = [.string, .integer, .any] ∧
      ∃ handler, op.resolve? .integer .any = some handler := by
  intro yes no history op
  have hpairs : history.pairs = [(.integer, .string), (.any, .any), (.integer, .integer),
      (.integer, .string), (.string, .any), (.any, .any)] := rfl
  have htypes : op.rhsTypes .integer = [.string, .integer, .any] := rfl
  obtain ⟨hresolve, -, -, hlisted⟩ := last_handlers_in_first_order "~" history .integer
  refine ⟨(hresolve .string yes).mpr ?_, (hresolve .boolean yes).mpr ?_, htypes, hlisted .any ?_⟩
  · have hafter : HandlerHistory.pairs (history.drop 4) = [(.string, .any), (.any, .any)] := rfl
    rw [if_pos (by rw [hpairs]; decide)]
    exact ⟨history.take 3, history.drop 4, rfl, by rw [hafter]; decide⟩
  · rw [if_neg (by rw [hpairs]; decide)]
    exact ⟨history.take 5, [], rfl, List.not_mem_nil⟩
  · rw [htypes]
    decide

end Operator

/-- **Every operator of an engine comes from a history of registrations.** -/
theorem Engine.Reachable.exists_history {α : Type} {engine : Engine α} (h : engine.Reachable) :
    ∀ op ∈ engine.operators.operators, ∃ token history, op = Operator.ofHistory token history := by
  refine h.forall_operators (fun token _ => ⟨token, [], rfl⟩) ?_
  rintro _ lhs rhs handler ⟨token, history, rfl⟩
  exact ⟨token, _, (Operator.ofHistory_concat token history lhs rhs handler).symm⟩

end FilterQuery
