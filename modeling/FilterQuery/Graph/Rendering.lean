import FilterQuery.Graph
import FilterQuery.Text.Quoted

/-!
# The text of a graph

A graph is written as an expression of its node kinds, without tokens.  Texts
that a query may quote are written between quotes.
-/

namespace FilterQuery.Graph

/-- The name and the parameter of a filter, and its operator. -/
def filterHead (f : FilterExpression) : String :=
  let param := match f.param with
    | some text => "(" ++ text ++ ")"
    | none => ""
  f.name ++ param ++ f.operator

mutual

def renderTree : Tree NodeKind → String
  | .node kind ts =>
    match kind with
    | .filter f =>
      "Filter(" ++ filterHead f ++ (if f.quoted then Text.quoted f.value else f.value) ++ ")"
    | .nestedFilter f =>
      "FilterWithNestedQuery(" ++ filterHead f ++ String.join ((renderAll ts).map (" " ++ ·)) ++ ")"
    | .search s => "Search(" ++ (if s.exact then "!" else "") ++ Text.quoted s.text ++ ")"
    | .nestedQuery q => "NestedQuery\x7b" ++ q.query ++ "\x7d"
    | .aggregator name =>
      "Aggregator(" ++ name ++ String.join ((renderAll ts).map (" " ++ ·)) ++ ")"
    | .comment text => "Comment(" ++ Text.quoted text ++ ")"
    | .toggle name => "Toggle(+" ++ name ++ ")"
    | kind => kind.name ++ "(" ++ ", ".intercalate (renderAll ts) ++ ")"

def renderAll : List (Tree NodeKind) → List String
  | [] => []
  | t :: ts => renderTree t :: renderAll ts

end

/-- The text of the tree below the root. -/
def render (g : Graph) : String :=
  match g.tree? with
  | none => "<empty>"
  | some t => renderTree (t.map (·.kind))

end FilterQuery.Graph
