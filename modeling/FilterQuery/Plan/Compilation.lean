import FilterQuery.Engine
import FilterQuery.Plan

/-!
# From graphs to plans

A node that cannot be compiled is reported, and stands in the plan as one that
yields nothing or never holds.
-/

namespace FilterQuery

variable {α : Type}

namespace Engine

/-- A node that cannot be compiled, and why. -/
abbrev Compiled (β : Type) := Noted QueryError β

/-- Reports what is wrong at a token. -/
def failing {β : Type} (cause : Cause) (token : Token) (stub : β) : Compiled β :=
  .noting (QueryError.about cause token) stub

/-- The arguments of one use of a filter. -/
def arguments (engine : Engine α) (found : FoundFilter α) (f : FilterExpression) (token : Token) :
    Compiled (Option FilterArgs) :=
  let args (param : Option Value) : FilterArgs :=
    { name := f.name, param, captures := found.captures }
  match f.param, found.filter.parameter with
  | none, _ => pure (some (args none))
  | some _, none => failing (.unexpectedParameter f.name) token none
  | some text, some parameter =>
    let parsed := match parameter.transform with
      | some transform => transform text
      | none => engine.parseValue? parameter.type text
    match parsed with
    | some param => pure (some (args (some param)))
    | none => failing (.unparsableParameter text f.name parameter.type) token none

/-- The value that a text stands for behind an operator, and the right-hand type
it was parsed as: by the filter's own parser, as the first type that fits of
those the operator compares with the filter's, or else as the filter's type. -/
def coerce? (engine : Engine α) (filter : Filter α) (operator : Option Operator) (text : String) :
    Option (ValueType × Value) :=
  let as (type : ValueType) : Option (ValueType × Value) :=
    (engine.parseValue? type text).map (type, ·)
  let own := (filter.parser.bind (· text)).map fun v => (v.valueType, v)
  let handled := (operator.map fun op => (op.rhsTypes filter.type).findSome? as).join
  (own.or handled).or (as filter.type)

/-- The handler that compares the values of a filter. -/
def handlerFor (filter : Filter α) (operator : Option Operator) (rhs : ValueType)
    (token : Token) (name : String) : Compiled (Option Handler) :=
  match operator with
  | none => failing (.unknownOperator name) token none
  | some op =>
    match op.resolve? filter.type rhs with
    | some handler => pure (some handler)
    | none => failing (.noHandler name filter.type rhs) token none

/-- The comparison of texts that a filter uses. -/
def comparisonFor (engine : Engine α) (filter : Filter α) : StringComparison :=
  filter.comparison.getD engine.comparison

/-- The condition of a filter. -/
def compileFilter (engine : Engine α) (f : FilterExpression) (token : Token) :
    Compiled (Condition α) :=
  match engine.findFilter? f.name with
  | none =>
    match engine.defaultFilter with
    | some decide => pure (.default decide f)
    | none => pure .never
  | some found => do
    let filter := found.filter
    let some args ← engine.arguments found f token | return .never
    let operator := engine.operators.find? f.operator
    match engine.coerce? filter operator f.value with
    | none => failing (.unparsableValue f.value f.name filter.type) token .never
    | some (rhs, value) =>
      match filter.source with
      | .decider decide => return .decide { args, operator := f.operator, decide } value
      | .reader read =>
        let some handler ← handlerFor filter operator rhs token f.operator | return .never
        let reading : Reading α := { label := filter.label, read := read args }
        return .compare reading handler (engine.comparisonFor filter) value

/-- The condition of a filter whose value is a nested query, given the plan of
that. -/
def compileNestedFilter (engine : Engine α) (f : FilterExpression) (token : Token)
    (source : Compiled (Plan α)) : Compiled (Condition α) :=
  match engine.findFilter? f.name with
  | none => pure .never
  | some found => do
    let filter := found.filter
    match filter.nested with
    | none => failing (.noNestedTransformer f.name) token .never
    | some transform =>
      let some args ← engine.arguments found f token | return .never
      let source ← source
      match filter.source with
      | .decider decide =>
        return .decideNested { args, operator := f.operator, decide } transform.read source
      | .reader read =>
        match (engine.operators.find? f.operator).bind (·.resolve? filter.type transform.type) with
        | none => failing (.noHandler f.operator filter.type transform.type) token .never
        | some handler =>
          let reading : Reading α := { label := filter.label, read := read args }
          return .compareNested reading handler (engine.comparisonFor filter) transform.read source

/-- The condition of a word. -/
def compileSearch (engine : Engine α) (word : SearchExpression) (token : Token) :
    Compiled (Condition α) :=
  match engine.searchTexts with
  | none => failing .noSearchData token .never
  | some texts => pure (.search texts engine.wordMatcher engine.comparison word)

/-- The plan of a nested query. -/
def compileNested (engine : Engine α) (q : NestedExpression) (token : Token) :
    Compiled (Plan α) :=
  match engine.nestedHandler with
  | none => failing .noNestedHandler token .nothing
  | some handler => pure (.nested q.query (q.filter.getD "") handler)

mutual

/-- The condition that a tree states. -/
def compileCondition (engine : Engine α) : Tree Graph.Place → Compiled (Condition α)
  | .node ⟨_, node⟩ children =>
    match node.kind, children with
    | .and, [left, right] => do
      return .both (← engine.compileCondition left) (← engine.compileCondition right)
    | .or, [left, right] => do
      return .either (← engine.compileCondition left) (← engine.compileCondition right)
    | .not, [operand] => do return .negation (← engine.compileCondition operand)
    | .filter f, [] => engine.compileFilter f node.token
    | .nestedFilter f, [source] =>
      engine.compileNestedFilter f node.token (engine.compilePlan source)
    | .search word, [] => engine.compileSearch word node.token
    | kind, _ =>
      if kind.isSetOperand then failing .nestedQueryAsCondition node.token .never
      else failing (.notACondition kind) node.token .never

/-- The plan that a tree states. -/
def compilePlan (engine : Engine α) : Tree Graph.Place → Compiled (Plan α)
  | .node ⟨_, node⟩ children =>
    match node.kind, children with
    | .select, [condition] => do return .select (← engine.compileCondition condition)
    | .intersection, [left, right] => do
      return .intersection (← engine.compilePlan left) (← engine.compilePlan right)
    | .union, [left, right] => do
      return .union (← engine.compilePlan left) (← engine.compilePlan right)
    | .nestedQuery q, [] => engine.compileNested q node.token
    | .aggregator name, [source] =>
      match engine.aggregators.find? name with
      | none => failing (.unknownAggregator name) node.token .nothing
      | some a => do return .aggregate a (← engine.compilePlan source)
    | kind, _ => failing (.notEnumerable kind) node.token .nothing

end

/-- The plan of a graph, unless it is empty. -/
def compile (engine : Engine α) (g : Graph) : Compiled (Option (Plan α)) :=
  match g.tree? with
  | none => pure none
  | some t => some <$> engine.compilePlan t

end Engine

end FilterQuery
