import FilterQuery.Graph.Combination
import FilterQuery.Lexeme

/-!
# From lexemes to a graph

Each lexeme becomes a node, in text order; a group becomes one after all that is
in it.  Nodes that were not written, an `and` between neighbours, follow those
of their sequence.  The combinators then take their operands, and the links of
the graph are laid along the resulting tree.

What is known about filters and nested queries decides only which errors are
reported and which nodes are skipped, never the shape of the graph.
-/

namespace FilterQuery

/-- What is to be done about a filter. -/
structure Verdict where
  /-- It is left out of evaluation. -/
  skipped : Bool := false
  cause : Option Cause := none
  deriving DecidableEq, Inhabited, Repr

/-- What is known about the names in a query. -/
structure Knowledge where
  /-- The verdict on a filter, with a nested query as its value or without. -/
  judge : FilterExpression → (nested : Bool) → Verdict
  /-- Nested queries can be resolved. -/
  resolvesNested : Bool
  hasAggregator : String → Bool

/-- What has been made of a text so far. -/
structure Draft where
  graph : Graph := {}
  errors : List QueryError := []
  /-- The names of the toggles, in text order. -/
  toggles : List String := []
  /-- The texts of the comments, in text order. -/
  comments : List String := []
  deriving Inhabited, Repr

/-- Work on a draft. -/
abbrev Drafting := StateM Draft

namespace Draft

open FilterQuery.Graph (Item Place)

/-- A new node, with nothing below it. -/
def add (kind : NodeKind) (token : Token) (skipped : Bool) : Drafting Item := do
  let d ← get
  let (graph, id) := d.graph.add kind token
  let graph := if skipped then graph.update id ({ · with skipped }) else graph
  set { d with graph }
  return .leaf ⟨id, graph.node id⟩

def report (e : QueryError) : Drafting Unit :=
  modify fun d => { d with errors := d.errors ++ [e] }

/-- Takes over the errors noted with a value. -/
def absorb {β : Type} (x : Noted QueryError β) : Drafting β := do
  modify fun d => { d with errors := d.errors ++ x.notes }
  return x.value

/-- The nodes of a nested query: the query, and its aggregator above it. -/
def addBlock (block : NestedBlock) (filter : Option String) : Drafting Item := do
  let query ← add (.nestedQuery { query := block.query, filter }) block.token false
  match block.aggregator with
  | none => return query
  | some name => return (← add (.aggregator name) block.token false).withOperands [query]

/-- Reports an aggregator that is not known. -/
def checkAggregator (known : Knowledge) (block : NestedBlock) : Drafting Unit := do
  if let some name := block.aggregator then
    if !known.hasAggregator name then
      report (QueryError.about (.unknownAggregator name) block.token)

/-- Reports that a nested query cannot be resolved. -/
def reportUnresolvable (block : NestedBlock) (token : Token) : Drafting Unit :=
  report (QueryError.about (.unresolvableNestedQuery block.query) token)

/-- The node of a filter and of the nested query in it.  At most one of its
faults is reported, and besides it an unknown aggregator. -/
def addFilter (known : Knowledge) (f : FilterExpression) (block : Option NestedBlock)
    (token : Token) : Drafting Item := do
  let verdict := known.judge f block.isSome
  match block with
  | none =>
    let item ← add (.filter f) token verdict.skipped
    if let some cause := verdict.cause then report (QueryError.about cause token)
    return item
  | some block =>
    let item ← add (.nestedFilter f) token (known.resolvesNested && verdict.skipped)
    let value ← addBlock block (some f.name)
    if known.resolvesNested then
      if let some cause := verdict.cause then report (QueryError.about cause token)
      checkAggregator known block
    else reportUnresolvable block token
    return item.withOperands [value]

/-- The node of the `and` that is left out between two items, at the gap between
them. -/
def addGap (text : String) (left right : Item) : Drafting Item :=
  add .and (Token.ofRange text left.token.stop right.token.position) false

/-- Puts an `and` between all items between which it is left out. -/
def joinAdjacent (text : String) : List Item → Drafting (List Item)
  | left :: right :: rest => do
    if left.isAdjacent right then
      let gap ← addGap text left right
      return left :: gap :: (← joinAdjacent text (right :: rest))
    else return left :: (← joinAdjacent text (right :: rest))
  | items => return items

/-- The expression that the items of a sequence make up. -/
def compose (text : String) (items : List Item) : Drafting (Option Item) := do
  absorb (Graph.combine (← joinAdjacent text items))

mutual

/-- The item of a lexeme; a group in which nothing is left has none. -/
def addLexeme (known : Knowledge) (text : String) : Lexeme → Drafting (Option Item)
  | .group inner token => do
    match ← compose text (← addLexemes known text inner) with
    | none => return none
    | some child => return some ((← add .group token false).withOperands [child])
  | .and token => return some (← add .and token false)
  | .or token => return some (← add .or token false)
  | .not token => return some (← add .not token false)
  | .nested block => do
    let item ← addBlock block none
    if known.resolvesNested then checkAggregator known block
    else reportUnresolvable block block.token
    return some item
  | .filter f block token => return some (← addFilter known f block token)
  | .toggle name token => do
    modify fun d => { d with toggles := d.toggles ++ [name] }
    return some (← add (.toggle name) token true)
  | .comment content token => do
    modify fun d => { d with comments := d.comments ++ [content] }
    return some (← add (.comment content) token true)
  | .word s token => return some (← add (.search s) token false)

/-- The items of lexemes side by side. -/
def addLexemes (known : Knowledge) (text : String) : List Lexeme → Drafting (List Item)
  | [] => return []
  | l :: ls => do
    let item ← addLexeme known text l
    return item.toList ++ (← addLexemes known text ls)

end

mutual

/-- Lays the links of a tree. -/
def link (g : Graph) : Item → Graph
  | .node p ts => linkAll p.id g ts

def linkAll (parent : NodeId) (g : Graph) : List Item → Graph
  | [] => g
  | t :: ts => linkAll parent ((link g t).addChild parent t.label.id) ts

end

/-- The draft of a query whose text has the given lexemes. -/
def ofLexemes (known : Knowledge) (text : String) (lexemes : List Lexeme) : Draft :=
  let build : Drafting (Option Item) := do compose text (← addLexemes known text lexemes)
  let (root, d) := build.run {}
  match root with
  | none => d
  | some t => { d with graph := (link d.graph t).setRoot (some t.label.id) }

end Draft

end FilterQuery
