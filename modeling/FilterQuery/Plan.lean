import FilterQuery.Filter
import FilterQuery.Aggregator
import FilterQuery.Expression
import FilterQuery.Run

/-!
# Plans

What a query compiles to: every name in it is resolved to the functions that
will be called.  A plan yields elements; a condition holds of an element or not.
-/

namespace FilterQuery

variable {α : Type}

/-- How one use of a filter reads values. -/
structure Reading (α : Type) where
  /-- The name that a trace shows. -/
  label : String
  /-- What reads from an element, if the arguments allow reading at all. -/
  read : Option (α → Option Value)

/-- What one use of a filter decides by itself. -/
structure Decision (α : Type) where
  args : FilterArgs
  operator : String
  decide : α → FilterArgs → (operator : String) → Value → Bool

mutual

/-- A condition on an element. -/
inductive Condition (α : Type) where
  | never
  | both (a b : Condition α)
  | either (a b : Condition α)
  | negation (a : Condition α)
  /-- A filter that is not registered. -/
  | default (decide : α → String → String → String → Bool) (f : FilterExpression)
  /-- A value read from the element stands in a relation to another. -/
  | compare (reading : Reading α) (handler : Handler) (comparison : StringComparison)
      (value : Value)
  /-- The same for the value of some element of a plan. -/
  | compareNested (reading : Reading α) (handler : Handler) (comparison : StringComparison)
      (transform : α → Option Value) (source : Plan α)
  | decide (decision : Decision α) (value : Value)
  /-- The same for the value of some element of a plan. -/
  | decideNested (decision : Decision α) (transform : α → Option Value) (source : Plan α)
  /-- Some text of the element matches a word. -/
  | search (texts : α → List String) (matcher : Option (String → String → Bool))
      (comparison : StringComparison) (word : SearchExpression)

/-- What yields elements. -/
inductive Plan (α : Type) where
  /-- The elements of the payload that meet a condition. -/
  | select (c : Condition α)
  | intersection (a b : Plan α)
  | union (a b : Plan α)
  /-- The elements of a nested query. -/
  | nested (query filter : String) (handler : String → String → List α)
  | aggregate (a : Aggregator α) (source : Plan α)
  /-- What stands for a plan that could not be made. -/
  | nothing

end

instance : Inhabited (Condition α) := ⟨.never⟩

instance : Inhabited (Plan α) := ⟨.nothing⟩

/-- Reads a value from an element. -/
def Reading.value (r : Reading α) (e : α) : Noted (Call α) (Option Value) :=
  match r.read with
  | none => pure none
  | some read => .noting (.read r.label e) (read e)

/-- Compares two values. -/
def Handler.related (h : Handler) (l r : Value) (comparison : StringComparison) :
    Noted (Call α) Bool :=
  .noting (.compare h.label l r comparison) (h.holds l r comparison)

/-- Decides about an element and a value. -/
def Decision.holds (d : Decision α) (e : α) (value : Value) : Noted (Call α) Bool :=
  .noting (.decide d.args.name d.args.param d.operator value e) (d.decide e d.args d.operator value)

/-- One text matches a word: equal to it if the word is exact, or else as the
matcher says, or by containment. -/
def SearchExpression.fits (word : SearchExpression) (matcher : Option (String → String → Bool))
    (comparison : StringComparison) (text : String) : Noted (Call α) Bool :=
  if word.exact then pure (comparison.equals text word.text)
  else
    match matcher with
    | some fits => .noting (.matchWord word.text text) (fits word.text text)
    | none => pure (comparison.contains text word.text)

/-- Looks for a text that matches, and stops at the first. -/
def anyText (p : String → Noted (Call α) Bool) : List String → Noted (Call α) Bool
  | [] => pure false
  | text :: texts => do
    if ← p text then return true
    anyText p texts

variable [BEq α]

mutual

/-- The condition holds of an element.  Operands are looked at from left to
right, and no further than needed. -/
def Condition.holds : Condition α → α → Noted (Call α) Bool
  | .never, _ => pure false
  | .both a b, e => do
    if ← a.holds e then b.holds e else return false
  | .either a b, e => do
    if ← a.holds e then return true else b.holds e
  | .negation a, e => do return !(← a.holds e)
  | .default decide f, e =>
    .noting (.default f.name f.operator f.value e) (decide e f.name f.operator f.value)
  | .compare reading handler comparison value, e => do
    match ← reading.value e with
    | none => return false
    | some l => handler.related l value comparison
  | .compareNested reading handler comparison transform source, e => do
    match ← reading.value e with
    | none => return false
    | some l =>
      (source.run .strict []).search fun found =>
        match transform found with
        | none => pure false
        | some r => handler.related l r comparison
  | .decide decision value, e => decision.holds e value
  | .decideNested decision transform source, e =>
    (source.run .strict []).search fun found =>
      match transform found with
      | none => pure false
      | some r => decision.holds e r
  | .search texts matcher comparison word, e => do
    Noted.note (.search e)
    anyText (word.fits matcher comparison) (texts e)

/-- The run of a plan over a payload.  Only a selection at the root reads the
payload. -/
def Plan.run : Plan α → Mode → (payload : List α) → Run α
  | .select c, mode, payload =>
    payload.flatMap fun e =>
      let met := c.holds e
      Run.ofCalls met.notes ++
        match mode, met.value with
        | _, true => [.slot (some e)]
        | .strict, false => []
        | .fast, false => [.slot none]
  | .intersection a b, .strict, _ => (a.run .strict []).intersection (b.run .strict [])
  | .intersection a b, .fast, _ => Run.merge Run.intersectionRule (a.run .fast []) (b.run .fast [])
  | .union a b, .strict, _ => (a.run .strict []).union (b.run .strict [])
  | .union a b, .fast, _ => Run.merge Run.unionRule (a.run .fast []) (b.run .fast [])
  | .nested query filter handler, _, _ =>
    .call (.nested query filter) :: Run.ofElements (handler query filter)
  | .aggregate a source, mode, _ =>
    let run := source.run mode []
    let elements := run.elements
    Run.ofCalls run.calls ++
      .call (.aggregate a.label elements.length) :: Run.ofElements (a.reduce elements)
  | .nothing, _, _ => []

end

/-- The element is in the result. -/
def Plan.yields (p : Plan α) (e : α) : Noted (Call α) Bool :=
  match p with
  | .select c => c.holds e
  | p => (p.run .strict []).search fun found => pure (found == e)

end FilterQuery
