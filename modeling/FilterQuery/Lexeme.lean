import FilterQuery.Expression

/-!
# Lexemes

The pieces that a query's text falls into.  A parenthesized group is one lexeme
that holds the lexemes between its parentheses.
-/

namespace FilterQuery

/-- A nested query in braces, with the name of the aggregator in front of
them. -/
structure NestedBlock where
  aggregator : Option String
  query : String
  token : Token
  deriving DecidableEq, Inhabited, Repr

inductive Lexeme where
  | group (inner : List Lexeme) (token : Token)
  | and (token : Token)
  | or (token : Token)
  | not (token : Token)
  | nested (block : NestedBlock)
  /-- A filter; the block is there if the value is a nested query. -/
  | filter (expression : FilterExpression) (block : Option NestedBlock) (token : Token)
  | toggle (name : String) (token : Token)
  | comment (text : String) (token : Token)
  | word (expression : SearchExpression) (token : Token)
  deriving Inhabited, Repr

namespace Lexeme

def token : Lexeme → Token
  | group _ t | and t | or t | not t | filter _ _ t | toggle _ t | comment _ t | word _ t => t
  | nested block => block.token

mutual

/-- The tokens of a lexeme, those of a group's contents in place of its own. -/
def flatTokens : Lexeme → List Token
  | group inner _ => flatTokensOf inner
  | l => [l.token]

/-- The tokens of lexemes in text order. -/
def flatTokensOf : List Lexeme → List Token
  | [] => []
  | l :: ls => flatTokens l ++ flatTokensOf ls

end

end Lexeme

end FilterQuery
