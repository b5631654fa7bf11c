import FilterQuery.Index
import FilterQuery.Operator

/-!
# Tables of operators

Operators stand in order of registration, and an index leads from a token to its
operator.  The text of a query is scanned for the tokens in another order, the
longest first.  These are kept beside the table and made anew with every
operator that is added; a new handler leaves them as they are.
-/

namespace FilterQuery

/-- The operators of an engine. -/
structure OperatorTable where
  /-- In order of registration. -/
  operators : List Operator
  /-- Where the operator with a token stands. -/
  index : Index
  leads : index.LeadsTo (fun op => some op.token) operators

namespace OperatorTable

def empty : OperatorTable := ⟨[], {}, Index.leadsTo_nil _⟩

def find? (table : OperatorTable) (token : String) : Option Operator :=
  (table.index.place? token).bind (table.operators[·]?)

def contains (table : OperatorTable) (token : String) : Bool :=
  (table.index.place? token).isSome

/-- A token that is not contained leads nowhere. -/
theorem place?_eq_none {table : OperatorTable} {token : String}
    (h : ¬ table.contains token = true) : table.index.place? token = none :=
  Option.not_isSome_iff_eq_none.mp h

/-- Adds an operator unless its token is taken. -/
def insert? (table : OperatorTable) (op : Operator) : Option OperatorTable :=
  if h : table.contains op.token then none
  else some {
    operators := table.operators ++ [op]
    index := table.index.put op.token table.operators.length
    leads := table.leads.put rfl (place?_eq_none h) }

/-- Changes the operator with a token, if there is one, in something else than
the token. -/
def modify? (table : OperatorTable) (token : String) (f : Operator → Operator)
    (hf : ∀ op, (f op).token = op.token) : Option OperatorTable :=
  (table.index.place? token).map fun place =>
    { operators := table.operators.modify place f
      index := table.index
      leads := table.leads.modify (fun op => congrArg some (hf op)) place }

/-- The table of the built-in relations. -/
def builtin : OperatorTable :=
  Relation.all.foldl (fun table r => (table.insert? r.toOperator).getD table) empty

/-- A longer token comes first, and of two equally long ones the one first in
byte order. -/
def tokenBefore (a b : String) : Bool :=
  b.utf8ByteSize < a.utf8ByteSize ||
    (a.utf8ByteSize = b.utf8ByteSize && Text.compareChars a.toList b.toList != .gt)

/-- Puts a token before the first that it comes before. -/
def insertToken (token : String) : List String → List String
  | [] => [token]
  | t :: ts => if tokenBefore token t then token :: t :: ts else t :: insertToken token ts

/-- All tokens, the longest first, so that the first that fits a text is the
longest. -/
def alphabet (table : OperatorTable) : List String :=
  (table.operators.map (·.token)).foldr insertToken []

/-- A change of an operator keeps all tokens. -/
theorem map_token_modify? {table table' : OperatorTable} {token : String}
    {f : Operator → Operator} {hf : ∀ op, (f op).token = op.token}
    (h : table.modify? token f hf = some table') :
    table'.operators.map (·.token) = table.operators.map (·.token) := by
  obtain ⟨place, -, rfl⟩ := Option.map_eq_some_iff.mp h
  refine List.ext_getElem? fun i => ?_
  rw [List.getElem?_map, List.getElem?_map, List.getElem?_modify, Option.map_eq_map,
    Option.map_map]
  refine congrArg (Option.map · _) (funext fun op => ?_)
  rw [Function.comp_apply]
  split
  · exact hf op
  · rfl

end OperatorTable

/-- The operators of an engine, with the tokens that the text of a query is
scanned for. -/
structure Lexicon where
  operators : OperatorTable
  alphabet : List String
  /-- Whatever changes the operators keeps both in step. -/
  alphabet_eq : alphabet = operators.alphabet

namespace Lexicon

/-- The operators with their own tokens. -/
def ofTable (operators : OperatorTable) : Lexicon := ⟨operators, operators.alphabet, rfl⟩

/-- The built-in relations. -/
def builtin : Lexicon := ofTable .builtin

/-- Adds an operator unless its token is taken. -/
def insert? (lexicon : Lexicon) (op : Operator) : Option Lexicon :=
  (lexicon.operators.insert? op).map ofTable

/-- Adds a handler to the operator with a token, if there is one. -/
def addHandler? (lexicon : Lexicon) (token : String) (lhs rhs : ValueType)
    (handler : Handler) : Option Lexicon :=
  match h : lexicon.operators.modify? token (·.addHandler lhs rhs handler)
      (fun op => op.token_addHandler lhs rhs handler) with
  | none => none
  | some operators =>
    some ⟨operators, lexicon.alphabet, lexicon.alphabet_eq.trans
      (congrArg (List.foldr OperatorTable.insertToken [])
        (OperatorTable.map_token_modify? h).symm)⟩

end Lexicon

end FilterQuery
