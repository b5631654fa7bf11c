import FilterQuery.Proofs.Lookups

/-!
# Registration

Embedding programs do not build engines field by field: they start from a new
engine and change it by registrations and settings.  What each of these keeps
holds of every engine that a program can have.  Its operators in particular are
made of a token and of handlers that are added one by one, and the tokens hold
none of the characters that delimit the parts of a query.
-/

namespace FilterQuery.Engine

variable {α : Type}

/-- One registration, or a change of the settings. -/
inductive Step : Engine α → Engine α → Prop where
  | filter (engine : Engine α) (f : Filter α) : Step engine (engine.addFilter f).1
  | operator {engine engine' : Engine α} {token : String} {free : Bool}
      (h : engine.addOperator token = .ok (engine', free)) : Step engine engine'
  | handler {engine engine' : Engine α} {token : String} {lhs rhs : ValueType} {handler : Handler}
      (h : engine.addHandler token lhs rhs handler = .ok engine') : Step engine engine'
  | parser (engine : Engine α) (type : ValueType) (parser : Parser) :
      Step engine (engine.addParser type parser)
  | aggregator (engine : Engine α) (name : String) (a : Aggregator α) :
      Step engine (engine.addAggregator name a).1
  | settings (engine : Engine α) (searchTexts : Option (α → List String))
      (wordMatcher : Option (String → String → Bool))
      (nestedHandler : Option (String → String → List α))
      (defaultFilter : Option (α → String → String → String → Bool)) (validation : Validation)
      (comparison : StringComparison) :
      Step engine { engine with
        searchTexts, wordMatcher, nestedHandler, defaultFilter, validation, comparison }

/-- The engine comes from a new one. -/
inductive Reachable : Engine α → Prop where
  | new : Reachable {}
  | step {engine engine' : Engine α} (h : Reachable engine) (hstep : Step engine engine') :
      Reachable engine'

end FilterQuery.Engine

namespace FilterQuery

open Engine (isReserved)

/-- The token says something, and none of its characters delimits the parts of a
query. -/
structure IsOperatorToken (token : String) : Prop where
  nonempty : token.toList ≠ []
  unreserved : ∀ c ∈ token.toList, isReserved c = false

/-- Reserved characters are in no operator. -/
theorem IsOperatorToken.not_mem {token : String} (h : IsOperatorToken token) {c : Char}
    (hc : isReserved c = true) : c ∉ token.toList := by
  intro hmem
  exact absurd (hc.symm.trans (h.unreserved c hmem)) (by decide)

/-- A property of operators that every new handler keeps holds of a built-in
relation if it holds of its token alone. -/
theorem Relation.toOperator_induction {P : Operator → Prop}
    (hadd : ∀ op lhs rhs handler, P op → P (op.addHandler lhs rhs handler)) (r : Relation)
    (hnew : P { token := r.token }) : P r.toOperator := by
  have hnumbers : P (numericPairs.foldl
      (fun op pair => op.addHandler pair.1 pair.2 r.ofNumbers) { token := r.token }) :=
    List.foldlRecOn numericPairs _ hnew fun op hop pair _ => hadd op pair.1 pair.2 r.ofNumbers hop
  have hstrings := hadd _ .string .string r.ofStrings hnumbers
  unfold toOperator
  split
  · exact hadd _ .boolean .boolean _ hstrings
  · exact hadd _ .boolean .boolean _ hstrings
  · exact hadd _ .boolean .boolean _ hstrings
  · exact hstrings

/-- The tokens of the relations are let through. -/
theorem Relation.isOperatorToken (r : Relation) : IsOperatorToken r.token := by
  have hunreserved : r.token.toList.any isReserved = false := by cases r <;> rfl
  constructor
  · cases r <;> decide
  · intro c hc
    exact eq_false_of_ne_true (List.any_eq_false.mp hunreserved c hc)

namespace OperatorTable

section All

variable {P : Operator → Prop} {table table' : OperatorTable}

/-- What a token has and every handler keeps holds of the built-in operators. -/
theorem forall_builtin (hnew : ∀ token, IsOperatorToken token → P { token })
    (hadd : ∀ op lhs rhs handler, P op → P (op.addHandler lhs rhs handler)) :
    ∀ op ∈ builtin.operators, P op := by
  intro op hop
  rw [operators_builtin] at hop
  obtain ⟨r, -, rfl⟩ := List.mem_map.mp hop
  exact r.toOperator_induction hadd (hnew _ r.isOperatorToken)

/-- What holds of all operators and of a new one holds of all from then on. -/
theorem forall_insert? {op : Operator} (h : ∀ op ∈ table.operators, P op) (hop : P op)
    (hinsert : table.insert? op = some table') : ∀ op ∈ table'.operators, P op := by
  rcases table.insert?_cases op with ⟨htaken, -⟩ | ⟨inserted, hinserted, hoperators, -⟩
  · cases htaken.symm.trans hinsert
  · obtain rfl := Option.some.inj (hinserted.symm.trans hinsert)
    rw [hoperators]
    exact List.forall_mem_append.mpr ⟨h, List.forall_mem_singleton.mpr hop⟩

/-- What holds of all operators and is kept by a change holds of all behind
it. -/
theorem forall_modify? {token : String} {f : Operator → Operator}
    {htoken : ∀ op, (f op).token = op.token} (h : ∀ op ∈ table.operators, P op)
    (hf : ∀ op, P op → P (f op)) (hmodify : table.modify? token f htoken = some table') :
    ∀ op ∈ table'.operators, P op := by
  intro op' hop'
  obtain ⟨op, hop, rfl | rfl⟩ := mem_modify? hmodify hop'
  · exact hf op (h op hop)
  · exact h op' hop

end All

/-- The tokens of all operators are what registration lets through. -/
def IsSound (table : OperatorTable) : Prop := ∀ op ∈ table.operators, IsOperatorToken op.token

/-- A new handler keeps the token. -/
theorem isOperatorToken_addHandler (op : Operator) (lhs rhs : ValueType) (handler : Handler)
    (h : IsOperatorToken op.token) : IsOperatorToken (op.addHandler lhs rhs handler).token := by
  rwa [op.token_addHandler]

/-- The built-in operators are sound. -/
theorem builtin_isSound : builtin.IsSound :=
  forall_builtin (fun _ htoken => htoken) isOperatorToken_addHandler

/-- A token is put in among the others. -/
theorem mem_insertToken {token t : String} {ts : List String} :
    t ∈ insertToken token ts ↔ t = token ∨ t ∈ ts := by
  induction ts with
  | nil => simp [insertToken]
  | cons t' ts ih =>
      rw [insertToken]
      split
      · exact List.mem_cons
      · rw [List.mem_cons, ih, List.mem_cons]
        exact or_left_comm

/-- The alphabet lists the tokens of all operators. -/
theorem mem_alphabet {table : OperatorTable} {token : String} :
    token ∈ table.alphabet ↔ ∃ op ∈ table.operators, op.token = token := by
  have hfold : ∀ tokens : List String, token ∈ tokens.foldr insertToken [] ↔ token ∈ tokens := by
    intro tokens
    induction tokens with
    | nil => rfl
    | cons t tokens ih => rw [List.foldr_cons, mem_insertToken, ih, List.mem_cons]
  rw [alphabet, hfold, List.mem_map]

/-- The tokens of a sound table are let through. -/
theorem IsSound.isOperatorToken {table : OperatorTable} (h : table.IsSound) {token : String}
    (htoken : token ∈ table.alphabet) : IsOperatorToken token := by
  obtain ⟨op, hop, rfl⟩ := mem_alphabet.mp htoken
  exact h op hop

end OperatorTable

namespace Engine

variable {α : Type}

section All

variable {P : Operator → Prop} (hnew : ∀ token, IsOperatorToken token → P { token })
  (hadd : ∀ op lhs rhs handler, P op → P (op.addHandler lhs rhs handler))

include hnew hadd

/-- One step keeps what a token has and every handler keeps. -/
theorem Step.forall_operators {engine engine' : Engine α} (h : Step engine engine')
    (hall : ∀ op ∈ engine.operators.operators, P op) :
    ∀ op ∈ engine'.operators.operators, P op := by
  cases h with
  | filter f =>
      unfold addFilter
      split
      · exact hall
      · exact hall
  | @operator _ token free h =>
      unfold addOperator at h
      split at h
      · cases h
      · next htoken =>
          rw [Bool.or_eq_true, not_or] at htoken
          have hop : IsOperatorToken token := by
            refine ⟨fun hnil => htoken.1 (by simpa [String.isEmpty_iff] using hnil), fun c hc => ?_⟩
            simpa using fun hreserved => htoken.2 (List.any_eq_true.mpr ⟨c, hc, hreserved⟩)
          split at h
          · cases h
            exact hall
          · next hinsert =>
              cases h
              exact OperatorTable.forall_insert? hall (hnew token hop)
                (Lexicon.insert?_eq_some hinsert)
  | @handler _ token lhs rhs handler h =>
      unfold addHandler at h
      split at h
      · cases h
      · next hmodify =>
          cases h
          exact OperatorTable.forall_modify? hall (fun op => hadd op lhs rhs handler)
            (Lexicon.addHandler?_eq_some hmodify)
  | parser type parser => exact hall
  | aggregator name a =>
      unfold addAggregator
      split
      · exact hall
      · exact hall
  | settings => exact hall

/-- **What a token has and every new handler keeps holds of all operators**,
whatever has been registered. -/
theorem Reachable.forall_operators {engine : Engine α} (h : Reachable engine) :
    ∀ op ∈ engine.operators.operators, P op := by
  induction h with
  | new => exact OperatorTable.forall_builtin hnew hadd
  | step _ hstep ih => exact hstep.forall_operators hnew hadd ih

end All

/-- **Operators hold no reserved characters**, whatever has been registered. -/
theorem Reachable.operators_isSound {engine : Engine α} (h : Reachable engine) :
    engine.operators.IsSound :=
  h.forall_operators (fun _ htoken => htoken) OperatorTable.isOperatorToken_addHandler

/-- The tokens that a text is scanned for are let through. -/
theorem Reachable.isOperatorToken {engine : Engine α} (h : Reachable engine) {token : String}
    (htoken : token ∈ engine.alphabet) : IsOperatorToken token :=
  h.operators_isSound.isOperatorToken (engine.alphabet_eq ▸ htoken)

end Engine

end FilterQuery
